import Mathlib.Logic.Relation
import Pylon.Transport.Loop

/-!
# What a step of the loop can do to a connection

A step of the loop works on one connection after another. What it can do to one of
them is a `Move`: the entry before and after, the items queued, the calls to the
wheel. Events, broadcasts, mailbox drains, resumed lookups and due timers are runs
of moves; accepting, and the goodbyes of the shutdown drain, are not.

Two things a move does not tell by itself: whether the connection was read from, and
whether it had a liveness deadline when the writable path established its session,
for no `touch` comes with that. `Move` has them as parameters.
-/

namespace Pylon.Transport

open Pylon.Lib Pylon.Redis

/-! ## Entries -/

/-- A session is on an open connection, and a parked lookup on an open one without
a session. -/
structure WorkerEntry.Sane (e : WorkerEntry) : Prop where
  session : e.session = true → e.state = .opened
  pending : e.pendingEstablish.isSome = true → e.state = .opened ∧ e.session = false

def Loop.Sane (l : Loop) : Prop := ∀ key e, l.worker.conns.hget key = some e → e.Sane

theorem WorkerEntry.Sends.sane {e e' : WorkerEntry} {items : List Item} (h : e.Sends e' items)
    (hsane : e.Sane) : e'.Sane where
  session := by
    rw [h.session, h.state]
    exact hsane.session
  pending := by
    rw [h.pending, h.state, h.session]
    exact hsane.pending

/-! ## Moves -/

/-- The calls are about this connection. -/
def TimerCall.On (key : Nat) : TimerCall → Prop
  | .touch conn _ | .markPingSent conn _ | .armLifetime conn _ | .armHandshake conn _
  | .clearHandshake conn | .clearLiveness conn | .remove conn => conn = key
  | .due _ => False

/-- What is called before the handler: a `touch`, if the connection is `read` from. -/
def Touches (read : Prop) (key : Nat) (calls : List TimerCall) : Prop :=
  calls = [] ∨ read ∧ ∃ nowMs, calls = [.touch key nowMs]

/-- One connection's part of a step. `read` is known of a connection that is read
from, `watched` of one that is established without a `touch`. -/
inductive Loop.Move (cfg : LoopConfig) (read watched : Prop) (key : Nat) :
    Option WorkerEntry → List Item → List TimerCall → Option WorkerEntry → Prop
  | converse {e e' : WorkerEntry} {items : List Item} {calls : List TimerCall}
      (state : e.state = .opened) (sends : e.Sends e' items)
      (talk : items.all Item.isTalk = true) (touches : Touches read key calls) :
      Loop.Move cfg read watched key (some e) items calls (some e')
  | wait {e e' : WorkerEntry} {calls : List TimerCall} (state : e.state = .handshaking)
      (sends : e.Sends e' []) (touches : Touches read key calls) :
      Loop.Move cfg read watched key (some e) [] calls (some e')
  | park {e e' : WorkerEntry} {talk : List Item} {calls : List TimerCall} (response : Bytes)
      (state : e.state = .handshaking) (session : e.session = false)
      (state' : e'.state = .opened) (session' : e'.session = false)
      (emits : e.conn.Emits (.http response :: talk) e'.conn)
      (talks : talk.all Item.isTalk = true) (touches : Touches read key calls) :
      Loop.Move cfg read watched key (some e) (.http response :: talk) calls (some e')
  | establish {e e' : WorkerEntry} {talk : List Item} {calls : List TimerCall} (response : Bytes)
      (now : Nat) (state : e.state = .handshaking) (session : e.session = false)
      (state' : e'.state = .opened) (session' : e'.session = true)
      (pending' : e'.pendingEstablish = none)
      (emits : e.conn.Emits (.http response :: talk) e'.conn)
      (talks : talk.all Item.isTalk = true) (touches : Touches read key calls)
      (untouched : calls = [] → watched) :
      Loop.Move cfg read watched key (some e) (.http response :: talk)
        (calls ++ .clearHandshake key :: Loop.lifetimeCalls cfg key now) (some e')
  | resume {e e' : WorkerEntry} {talk : List Item} (now : Nat) (state : e.state = .opened)
      (session : e.session = false) (state' : e'.state = .opened) (session' : e'.session = true)
      (pending' : e'.pendingEstablish = none) (emits : e.conn.Emits talk e'.conn)
      (talks : talk.all Item.isTalk = true) :
      Loop.Move cfg read watched key (some e) talk
        (.touch key (nowMs now) :: (Loop.lifetimeCalls cfg key now ++ [.clearHandshake key]))
        (some e')
  | ping {e e' : WorkerEntry} {items : List Item} (nowMs : Nat) (state : e.state = .opened)
      (session : e.session = true) (sends : e.Sends e' items)
      (talk : items.all Item.isTalk = true) :
      Loop.Move cfg read watched key (some e) items [.markPingSent key nowMs] (some e')
  | forget {entry : Option WorkerEntry} (session : ∀ e ∈ entry, e.session = false) :
      Loop.Move cfg read watched key entry [] [.clearLiveness key] entry
  | excuse {entry : Option WorkerEntry} (session : ∀ e ∈ entry, e.session = true) :
      Loop.Move cfg read watched key entry [] [.clearHandshake key] entry
  | leave {entry : Option WorkerEntry} {items : List Item} (calls : List TimerCall)
      (vacant : entry = none → items = [])
      (handshaking : ∀ e ∈ entry, e.state = .handshaking → wireOrder items = true)
      (opened : ∀ e ∈ entry, e.state = .opened → wireFrames items = true)
      (on : ∀ c ∈ calls, c.On key) :
      Loop.Move cfg read watched key entry items (calls ++ [.remove key]) none

/-- From one loop to another by a change at `key` alone. -/
structure Loop.At (l l' : Loop) (key : Nat) (items : List Item) (calls : List TimerCall)
    (entry : Option WorkerEntry) : Prop where
  sets : l.worker.Sets l'.worker key entry
  wheel : l'.wheel = run TimerWheel.call l.wheel calls
  acceptedMs : l'.acceptedMs = l.acceptedMs
  wire : l'.wire = Function.update l.wire key (l.wire key ++ items)

def Loop.Does (cfg : LoopConfig) (read : Nat → Prop) (watched : Loop → Nat → Prop)
    (l l' : Loop) : Prop :=
  ∃ key items calls entry,
    Loop.Move cfg (read key) (watched l key) key (l.worker.conns.hget key) items calls entry ∧
      l.At l' key items calls entry

/-- A run of moves. -/
def Loop.Moves (cfg : LoopConfig) (read : Nat → Prop) (watched : Loop → Nat → Prop) :
    Loop → Loop → Prop :=
  Relation.ReflTransGen (Loop.Does cfg read watched)

theorem Loop.Move.sane {cfg : LoopConfig} {read watched : Prop} {key : Nat}
    {entry entry' : Option WorkerEntry} {items : List Item} {calls : List TimerCall}
    (h : Loop.Move cfg read watched key entry items calls entry') (hsane : ∀ e ∈ entry, e.Sane) :
    ∀ e ∈ entry', e.Sane := by
  rintro e' rfl
  cases h with
  | converse state sends | wait state sends | ping nowMs state session sends =>
    exact sends.sane (hsane _ rfl)
  | park _ _ _ state' session' =>
    exact ⟨fun _ => state', fun _ => ⟨state', session'⟩⟩
  | establish _ _ _ _ state' _ pending' =>
    exact ⟨fun _ => state', fun h => by rw [pending'] at h; cases h⟩
  | resume _ _ _ state' _ pending' =>
    exact ⟨fun _ => state', fun h => by rw [pending'] at h; cases h⟩
  | forget | excuse => exact hsane _ rfl

namespace Loop

variable {cfg : LoopConfig} {read : Nat → Prop} {watched : Loop → Nat → Prop} {l l' : Loop}

theorem Sane.does (hsane : l.Sane) (h : l.Does cfg read watched l') : l'.Sane := by
  obtain ⟨key, items, calls, entry, hmove, hat⟩ := h
  intro k e hk
  by_cases hkey : k = key
  · subst hkey
    exact hmove.sane (hsane k) e (hat.sets.entry.symm.trans hk)
  · exact hsane k e ((hat.sets.others k hkey).symm.trans hk)

theorem Sane.moves (hsane : l.Sane) (h : l.Moves cfg read watched l') : l'.Sane := by
  induction h with
  | refl => exact hsane
  | tail _ hdoes ih => exact ih.does hdoes

theorem Does.moves (h : l.Does cfg read watched l') : l.Moves cfg read watched l' := .single h

theorem Moves.foldl {α : Type*} {f : Loop → α → Loop}
    (hf : ∀ (l : Loop) (a : α), l.Sane → l.Moves cfg read watched (f l a)) (as : List α)
    (hsane : l.Sane) :
    l.Moves cfg read watched (as.foldl f l) := by
  induction as generalizing l with
  | nil => exact .refl
  | cons a _ ih =>
    have hstep := hf l a hsane
    exact hstep.trans (ih (hsane.moves hstep))

variable {entry : Option WorkerEntry} {calls : List TimerCall}

theorem advance_at {w : Worker} {key : Nat} (h : l.worker.Sets w key entry) (items : List Item)
    (calls : List TimerCall) : l.At (l.advance w key items calls) key items calls entry :=
  ⟨h, rfl, rfl, rfl⟩

theorem advance_nil (l : Loop) (key : Nat) : l.advance l.worker key [] [] = l := by
  unfold advance
  rw [List.append_nil, Function.update_eq_self]
  rfl

/-! ## Handlers -/

variable {key : Nat} {e : WorkerEntry} {items : List Item} {r : Handled}

theorem on_touches {p : Prop} (h : Touches p key calls) : ∀ c ∈ calls, c.On key := by
  rcases h with rfl | ⟨-, nowMs, rfl⟩
  · simp
  · simp [TimerCall.On]

theorem on_lifetimeCalls (now : Nat) : ∀ c ∈ lifetimeCalls cfg key now, c.On key := by
  unfold lifetimeCalls
  split <;> simp [TimerCall.On]

theorem on_establishCalls (now : Nat) : ∀ c ∈ establishCalls cfg key now e r, c.On key := by
  unfold establishCalls
  split
  · simpa [TimerCall.On] using on_lifetimeCalls now
  · simp

variable {e' : WorkerEntry}

theorem left_keep (h : r.action = .keep) :
    r.left = some { r.entry with conn := r.entry.conn.takeDeltas } := by
  rw [Handled.left, h]

theorem left_of_ne (h : r.action ≠ .keep) : r.left = none := by
  rw [Handled.left]
  split
  · exact absurd ‹_› h
  · rfl
  · rfl

theorem fateCalls_of_ne (key : Nat) (h : r.action ≠ .keep) :
    fateCalls key r.action = [.remove key] := by
  unfold fateCalls
  split
  · exact absurd ‹_› h
  · rfl
  · rfl

variable {p q : Prop}

theorem move_of_converses (calls : List TimerCall) (h : e.Converses items r)
    (hstate : e.state = .opened) (htouches : Touches q key calls) :
    Move cfg q p key (some e) items (calls ++ fateCalls key r.action) r.left := by
  rcases h.fate with ⟨haction, htalk⟩ | ⟨haction, hframes⟩
  · rw [left_keep haction, haction, fateCalls, List.append_nil]
    exact .converse hstate (sends_left h.sends) htalk htouches
  · have hne : r.action ≠ .keep := by rw [haction]; decide
    rw [left_of_ne hne, fateCalls_of_ne key hne]
    refine .leave _ nofun ?_ ?_ (on_touches htouches)
    · rintro _ ⟨⟩ h
      rw [hstate] at h
      cases h
    · rintro _ ⟨⟩ -
      exact hframes

/-- A read in the handshake is a move of its connection. -/
theorem move_of_shakes (calls : List TimerCall) (h : e.Shakes items r)
    (hstate : e.state = .handshaking) (hsane : e.Sane) (htouches : Touches q key calls) (now : Nat)
    (huntouched : calls = [] → e.session = false → r.entry.session = true → p) :
    Move cfg q p key (some e) items
      (calls ++ (establishCalls cfg key now e r ++ fateCalls key r.action)) r.left := by
  have hsession : e.session = false := by
    refine Bool.eq_false_iff.mpr fun h => ?_
    rw [hsane.session h] at hstate
    cases hstate
  cases h with
  | waits haction hsends hsilent =>
    have hnone : establishCalls cfg key now e r = [] := by
      rw [establishCalls, if_neg]
      rw [hsends.session, hsession]
      decide
    subst hsilent
    rw [left_keep haction, haction, fateCalls, hnone, List.append_nil, List.append_nil]
    exact .wait hstate (sends_left hsends) htouches
  | upgrades h =>
    obtain ⟨response, talk, rfl, htalk⟩ := h.order
    rw [left_keep h.action, h.action, fateCalls, List.append_nil]
    by_cases hsession' : r.entry.session = true
    · rw [establishCalls, if_pos ⟨hsession, hsession'⟩]
      have hpending : r.entry.pendingEstablish = none := by
        rw [h.pending hsession', ← Option.not_isSome_iff_eq_none]
        intro hsome
        rw [(hsane.pending hsome).1] at hstate
        cases hstate
      exact .establish response now hstate hsession h.state hsession' hpending
        h.emits.takeDeltas htalk
        htouches fun hcalls => huntouched hcalls hsession hsession'
    · rw [establishCalls, if_neg (by tauto), List.append_nil]
      exact .park response hstate hsession h.state
        (Bool.eq_false_iff.mpr hsession') h.emits.takeDeltas
        htalk htouches
  | ends haction _ horder =>
    rw [left_of_ne haction, fateCalls_of_ne key haction, ← List.append_assoc]
    refine .leave _ nofun ?_ ?_ ?_
    · rintro _ ⟨⟩ -
      exact horder
    · rintro _ ⟨⟩ h
      rw [hstate] at h
      cases h
    · intro c hc
      rcases List.mem_append.mp hc with hc | hc
      · exact on_touches htouches c hc
      · exact on_establishCalls now c hc

theorem move_of_outcome (calls : List TimerCall) (h : e.Outcome items r) (hsane : e.Sane)
    (htouches : Touches q key calls) (now : Nat)
    (huntouched : calls = [] → e.session = false → r.entry.session = true → p) :
    Move cfg q p key (some e) items
      (calls ++ (establishCalls cfg key now e r ++ fateCalls key r.action)) r.left := by
  unfold WorkerEntry.Outcome at h
  cases hstate : e.state with
  | handshaking =>
    rw [hstate] at h
    exact move_of_shakes calls h hstate hsane htouches now huntouched
  | opened =>
    rw [hstate] at h
    have hnone : establishCalls cfg key now e r = [] := by
      have hconverses : e.Converses items r := h
      rw [establishCalls, if_neg]
      rw [hconverses.sends.session]
      rintro ⟨hfalse, htrue⟩
      rw [hfalse] at htrue
      cases htrue
    rw [hnone]
    exact move_of_converses calls h hstate htouches

theorem move_of_silence (h : e.Sends e' []) : Move cfg q p key (some e) [] [] (some e') := by
  cases hstate : e.state with
  | handshaking => exact .wait hstate h (.inl rfl)
  | opened => exact .converse hstate h rfl (.inl rfl)

theorem does_advance {w : Worker}
    (hmove : Move cfg (read key) (watched l key) key (l.worker.conns.hget key) items calls entry)
    (hsets : l.worker.Sets w key entry) : l.Moves cfg read watched (l.advance w key items calls) :=
  .single ⟨key, items, calls, entry, hmove, advance_at hsets items calls⟩

theorem remove_moves (l : Loop) (key : Nat) : l.Moves cfg read watched (l.remove key) := by
  refine does_advance ?_ (l.worker.sets_release key)
  exact .leave [] (fun _ => rfl) (fun _ _ _ => rfl) (fun _ _ _ => rfl) (by simp)

/-! ## Events -/

section

variable (hecho : cfg.echo = false) (hsane : l.Sane)

include hecho hsane

theorem readable_moves (key : Nat) (input : Input) (now : Nat) (hread : read key) :
    l.Moves cfg read watched (l.readable cfg key input now) := by
  unfold readable
  cases hkey : l.worker.conns.hget key with
  | none => exact .refl
  | some e =>
    have htouch : touchCalls cfg key now = [.touch key (nowMs now)] := by
      rw [touchCalls, hecho]
      rfl
    have houtcome := WorkerEntry.outcome_handleReadable hecho (hsane key e hkey).session
      l.worker.nextGen input now
    refine does_advance ?_ (Worker.sets_readable cfg.toWorkerConfig hkey input now)
    rw [hkey, htouch]
    exact move_of_outcome _ houtcome (hsane key e hkey) (.inr ⟨hread, _, rfl⟩) now nofun

/-- The writable path establishes without a `touch`. -/
theorem writable_moves (key : Nat) (input : Input) (now : Nat)
    (hwatched : ∀ e, l.worker.conns.hget key = some e → e.session = false →
      (e.handleWritable cfg.toWorkerConfig l.worker.nextGen input now).entry.session = true →
        watched l key) :
    l.Moves cfg read watched (l.writable cfg key input now) := by
  unfold writable
  cases hkey : l.worker.conns.hget key with
  | none => exact .refl
  | some e =>
    have houtcome := WorkerEntry.outcome_handleWritable hecho (hsane key e hkey).session
      l.worker.nextGen input now
    refine does_advance ?_ (Worker.sets_writable cfg.toWorkerConfig hkey input now)
    rw [hkey]
    exact move_of_outcome [] houtcome (hsane key e hkey) (.inl rfl) now
      fun _ => hwatched e hkey

theorem readableEvent_moves (key : Nat) (ready : Worker.Readiness) (now : Nat)
    (hread : ready.readable ≠ none → read key) :
    l.Moves cfg read watched (l.readableEvent cfg key ready now) := by
  unfold readableEvent
  cases hready : ready.readable with
  | none => exact .refl
  | some input =>
    exact readable_moves hecho hsane key input now (hread (by rw [hready]; nofun))

end

/-- What the writable part of an event must know to establish a session. -/
def WatchedAt (cfg : LoopConfig) (watched : Loop → Nat → Prop) (l : Loop) (key : Nat)
    (ready : Worker.Readiness) (now : Nat) : Prop :=
  ready.hangup = false → ∀ input, ready.writable = some input →
    ∀ e, (l.readableEvent cfg key ready now).worker.conns.hget key = some e → e.session = false →
      (e.handleWritable cfg.toWorkerConfig (l.readableEvent cfg key ready now).worker.nextGen input
        now).entry.session = true → watched (l.readableEvent cfg key ready now) key

theorem handleEvent_moves (hecho : cfg.echo = false) (hsane : l.Sane) (key : Nat)
    (ready : Worker.Readiness) (now : Nat) (hread : ready.readable ≠ none → read key)
    (hwatched : WatchedAt cfg watched l key ready now) :
    l.Moves cfg read watched (l.handleEvent cfg key ready now) := by
  unfold handleEvent
  split
  · exact .refl
  · split
    · exact remove_moves l key
    · rename_i hhangup
      have hreads : l.Moves cfg read watched (l.readableEvent cfg key ready now) :=
        readableEvent_moves hecho hsane key ready now hread
      cases hready : ready.writable with
      | none => exact hreads
      | some input =>
        exact hreads.trans (writable_moves hecho (hsane.moves hreads) key input now
          (hwatched (Bool.eq_false_iff.mpr hhangup) input hready))

/-! ## Broadcasts, mailboxes, resumed lookups -/

theorem deliver_moves (budget now : Nat) (msg : BroadcastMsg) (s : Loop × List Nat)
    (sub : Subscriber) : s.1.Moves cfg read watched (deliver budget now msg s sub).1 := by
  have hnothing : s.1.Moves cfg read watched (s.1.advance s.1.worker sub.token [] []) := by
    rw [advance_nil]
    exact .refl
  unfold deliver Worker.deliver deliverItems
  dsimp only
  split
  · exact hnothing
  · cases hopen : s.1.worker.openConn sub.token with
    | none => exact hnothing
    | some e =>
      cases msg.frameFor sub.version with
      | none => exact hnothing
      | some frame =>
        dsimp only
        split
        · exact hnothing
        · obtain ⟨hkey, -, hstate⟩ := Worker.session_of_openConn hopen
          have hput := s.1.worker.sets_put sub.token (.keep (e.queue frame now))
          refine does_advance ?_ (hput.trans (Worker.sets_foldDelta hput.entry))
          rw [hkey]
          exact .converse hstate (sends_left (WorkerEntry.sends_queue e (.text frame) now)) rfl
            (.inl rfl)

theorem flushTouched_moves (pass : Pass) (s : Loop × List Nat) (token : Nat) :
    s.1.Moves cfg read watched (flushTouched pass s token).1 := by
  unfold flushTouched Worker.flushTouched
  cases hkey : s.1.worker.conns.hget token with
  | none =>
    show s.1.Moves cfg read watched (s.1.advance s.1.worker token [] [])
    rw [advance_nil]
    exact .refl
  | some e =>
    have hput := s.1.worker.sets_put token (e.flushAndArm (pass.site token) pass.now)
    refine does_advance ?_ (hput.trans (Worker.sets_foldDelta hput.entry))
    rw [hkey]
    exact move_of_silence (sends_left (WorkerEntry.sends_flushAndArm e _ _))

theorem Moves.foldl_fst {α : Type*} {f : Loop × List Nat → α → Loop × List Nat}
    (hf : ∀ (s : Loop × List Nat) (a : α), s.1.Moves cfg read watched (f s a).1) (as : List α)
    (s : Loop × List Nat) : s.1.Moves cfg read watched (as.foldl f s).1 :=
  run_invariant (fun (s' : Loop × List Nat) a (h : s.1.Moves cfg read watched s'.1) =>
    h.trans (hf s' a)) .refl as

theorem drainBroadcasts_moves (l : Loop) (budget : Nat) (msgs : List BroadcastMsg) (pass : Pass) :
    l.Moves cfg read watched (l.drainBroadcasts budget msgs pass) := by
  have hinbox : l.Moves cfg read watched (msgs.foldl (fun s msg =>
      msg.subs.foldl (deliver budget pass.now msg) s) (l, [])).1 :=
    Moves.foldl_fst
      (fun s msg => Moves.foldl_fst (deliver_moves budget pass.now msg) msg.subs s) msgs (l, [])
  unfold drainBroadcasts
  generalize msgs.foldl _ (l, []) = s at hinbox
  obtain ⟨l₁, touched⟩ := s
  have hflush : l₁.Moves cfg read watched
      ((pass.walk touched).foldl (flushTouched pass) (l₁, [])).1 :=
    Moves.foldl_fst (flushTouched_moves pass) (pass.walk touched) (l₁, [])
  dsimp only
  generalize (pass.walk touched).foldl _ (l₁, []) = s at hflush
  obtain ⟨l₂, toClose⟩ := s
  refine (hinbox.trans hflush).trans ?_
  exact run_invariant (fun (l' : Loop) key (h : l₂.Moves cfg read watched l') =>
    h.trans (remove_moves l' key)) .refl (pass.walk toClose)

theorem drainDirty_moves (mail : Nat → List Mail) (pass : Pass) (l : Loop) (key : Nat) :
    l.Moves cfg read watched (drainDirty mail pass l key) := by
  unfold drainDirty
  cases hopen : l.worker.openConn key with
  | none => exact .refl
  | some e =>
    obtain ⟨hkey, -, hstate⟩ := Worker.session_of_openConn hopen
    have hsets : l.worker.Sets (l.worker.drainDirty mail pass key) key
        (e.drainSession (mail key) (pass.site key) pass.now).left := by
      rw [Worker.drainDirty, hopen]
      exact l.worker.sets_settle key _ _
    refine does_advance ?_ hsets
    rw [hkey]
    exact move_of_converses [] (WorkerEntry.converses_drainSession e _ _ _) hstate
      (.inl rfl)

theorem move_leave (hstate : e.state = .opened) (hframes : wireFrames items = true) :
    Move cfg q p key (some e) items [.remove key] none := by
  refine .leave [] nofun ?_ ?_ (by simp)
  · rintro _ ⟨⟩ h
    rw [hstate] at h
    cases h
  · rintro _ ⟨⟩ -
    exact hframes

theorem resumed_error (e : WorkerEntry) (reject : Reject) (site : FlushSite) (now : Nat) :
    (resumed e (.error reject) site now).action = .close := rfl

/-- A finished lookup: a session, unless its first flush fails, or the end. -/
theorem move_of_resumed (hstate : e.state = .opened) (hsession : e.session = false)
    (outcome : Except Reject Bytes) (site : FlushSite) (now : Nat) :
    Move cfg q p key (some e) (resumedItems outcome)
      (match (resumed e outcome site now).action with
        | .keep => .touch key (nowMs now) :: (lifetimeCalls cfg key now ++ [.clearHandshake key])
        | .close | .handoff _ => [.remove key])
      (resumed e outcome site now).left := by
  cases outcome with
  | error =>
    rw [resumed_error, left_of_ne (by rw [resumed_error]; decide)]
    exact move_leave hstate rfl
  | ok text =>
    have hflush : WorkerEntry.Converses _ [] (resumed e (.ok text) site now) :=
      WorkerEntry.converses_flushAndArm
        { ({ e with pendingEstablish := none } : WorkerEntry).queueText text now with
          session := true } site now
    rcases hflush.fate with ⟨haction, -⟩ | ⟨haction, -⟩
    · rw [left_keep haction, haction]
      refine .resume now hstate hsession (hflush.sends.state.trans hstate) hflush.sends.session
        hflush.sends.pending ?_ rfl
      exact ((IoConnection.Emits.refl.queue (.event text) now).trans
        hflush.sends.emits).takeDeltas
    · rw [left_of_ne (by rw [haction]; decide), haction]
      exact move_leave hstate rfl

/-- An outcome for a connection that no longer waits moves nothing. -/
theorem drainResolved_moves (hsane : l.Sane) (token : Nat) (gen : BitVec 64)
    (outcome : Except Reject Bytes) (pass : Pass) :
    l.Moves cfg read watched (l.drainResolved cfg token gen outcome pass) := by
  unfold drainResolved
  cases hkey : l.worker.conns.hget token with
  | none => exact .refl
  | some e =>
    dsimp only
    split
    · exact .refl
    · rename_i hgen
      have hpending : e.pendingEstablish = some gen := not_not.mp hgen
      obtain ⟨hstate, hsession⟩ := (hsane token e hkey).pending (by rw [hpending]; rfl)
      have hsets : l.worker.Sets (l.worker.drainResolved token gen outcome pass) token
          (resumed e outcome (pass.site token) pass.now).left := by
        rw [Worker.drainResolved, hkey]
        dsimp only
        rw [if_neg hgen]
        exact l.worker.sets_settle token _ _
      refine does_advance ?_ hsets
      rw [hkey]
      exact move_of_resumed hstate hsession outcome _ _

/-! ## Timers -/

/-- A Close is due only where there is a session to close. -/
def Legit (l : Loop) : Timer.Due → Prop
  | .close4201 key | .close4202 key =>
    ∀ e, l.worker.conns.hget key = some e → e.session = true
  | .ping _ | .handshakeTimeout _ => True

theorem Sane.openConn (hsane : l.Sane) (hkey : l.worker.conns.hget key = some e)
    (hsession : e.session = true) : l.worker.openConn key = some e := by
  refine Option.filter_eq_some_iff.mpr ⟨hkey, ?_⟩
  rw [hsession, decide_eq_true ((hsane key e hkey).session hsession)]
  rfl

theorem pingDue_moves (hsane : l.Sane) (key : Nat) (text : Bytes) (pass : Pass) :
    l.Moves cfg read watched (l.pingDue key text pass) := by
  unfold pingDue
  cases hopen : l.worker.openConn key with
  | none =>
    refine does_advance (.forget fun e hkey => ?_) (.self l.worker key)
    refine Bool.eq_false_iff.mpr fun hsession => ?_
    rw [hsane.openConn hkey hsession] at hopen
    cases hopen
  | some e =>
    obtain ⟨hkey, hsession, hstate⟩ := Worker.session_of_openConn hopen
    have htalk : e.Converses [.event text]
        ((e.queueText text pass.now).flushAndArm (pass.site key) pass.now) :=
      WorkerEntry.converses_talk e (.event text) rfl _ _
    refine does_advance ?_ (sets_ping hopen text pass)
    rw [hkey]
    rcases htalk.fate with ⟨haction, htalks⟩ | ⟨haction, hframes⟩
    · rw [left_keep haction, haction, if_neg (by decide)]
      exact .ping _ hstate hsession (sends_left htalk.sends) htalks
    · rw [left_of_ne (by rw [haction]; decide), haction, if_pos rfl]
      exact move_leave hstate hframes

theorem closeDue_moves (hsane : l.Sane) (key code : Nat) (reason : String) (text : Option Bytes)
    (pass : Pass) (hlive : ∀ e, l.worker.conns.hget key = some e → e.session = true) :
    l.Moves cfg read watched (l.closeDue key code reason text pass) := by
  unfold closeDue
  cases hkey : l.worker.conns.hget key with
  | none => exact remove_moves l key
  | some e =>
    refine does_advance ?_ (Worker.sets_closeDue hkey code reason text pass)
    rw [hkey]
    refine move_leave ((hsane key e hkey).session (hlive e hkey)) ?_
    cases text <;> rfl

theorem handshakeDue_moves (l : Loop) (key : Nat) :
    l.Moves cfg read watched (l.handshakeDue key) := by
  unfold handshakeDue
  cases hkey : l.worker.conns.hget key with
  | none =>
    refine does_advance (.excuse ?_) (.self l.worker key)
    rw [hkey]
    simp
  | some =>
    dsimp only
    split
    · rename_i hsession
      refine does_advance (.excuse ?_) (.self l.worker key)
      rw [hkey]
      rintro _ ⟨⟩
      exact hsession
    · exact remove_moves l key

theorem fire_moves (hsane : l.Sane) (text : Nat → Bytes) (pass : Pass) (due : Timer.Due)
    (hlegit : l.Legit due) : l.Moves cfg read watched (fire text pass l due) := by
  cases due with
  | ping key => exact pingDue_moves hsane key _ pass
  | close4201 key | close4202 key => exact closeDue_moves hsane key _ _ _ pass hlegit
  | handshakeTimeout key => exact handshakeDue_moves l key

/-- No move makes a connection, or takes its session. -/
theorem Move.session {entry' : Option WorkerEntry} (h : Move cfg q p key entry items calls entry') :
    ∀ e' ∈ entry', ∃ e ∈ entry, e.session = true → e'.session = true := by
  rintro e' rfl
  cases h with
  | converse state sends | wait state sends | ping nowMs state session sends =>
    exact ⟨_, rfl, sends.session.trans⟩
  | park _ _ session =>
    refine ⟨_, rfl, fun h => ?_⟩
    rw [session] at h
    cases h
  | establish _ _ _ _ _ session' =>
    exact ⟨_, rfl, fun _ => session'⟩
  | resume _ _ _ _ session' =>
    exact ⟨_, rfl, fun _ => session'⟩
  | forget | excuse => exact ⟨_, rfl, id⟩

/-- While a session is due to be closed, no move puts a connection without one in
its place. -/
theorem Legit.moves {due : Timer.Due} (h : l.Legit due) (hmoves : l.Moves cfg read watched l') :
    l'.Legit due := by
  have hlive (key : Nat) (hkey : ∀ e, l.worker.conns.hget key = some e → e.session = true) :
      ∀ e, l'.worker.conns.hget key = some e → e.session = true := by
    induction hmoves with
    | refl => exact hkey
    | tail _ hdoes ih =>
      obtain ⟨k, items, calls, entry, hmove, hat⟩ := hdoes
      intro e' he'
      by_cases hk : key = k
      · subst hk
        obtain ⟨e, he, hsession⟩ := hmove.session e' (hat.sets.entry.symm.trans he')
        exact hsession (ih e he)
      · exact ih e' ((hat.sets.others key hk).symm.trans he')
  cases due with
  | ping | handshakeTimeout => trivial
  | close4201 key | close4202 key => exact hlive key h

/-- Due timers are worked off one after another, each of them legit in its turn. -/
theorem fire_along (cfg : LoopConfig) (text : Nat → Bytes) (pass : Pass) (dues : List Timer.Due)
    (hsane : l.Sane) (hlegit : ∀ due ∈ dues, l.Legit due) :
    Along (fire text pass) (fun l due => l.Sane ∧ l.Legit due) l dues := by
  induction dues generalizing l with
  | nil => trivial
  | cons due _ ih =>
    have hdue := hlegit due List.mem_cons_self
    have hfire : l.Moves cfg (fun _ => True) (fun _ _ => True) (fire text pass l due) :=
      fire_moves hsane text pass due hdue
    refine ⟨⟨hsane, hdue⟩, ih (hsane.moves hfire) fun due' hdue' => ?_⟩
    exact (hlegit due' (List.mem_cons_of_mem due hdue')).moves hfire

theorem fire_foldl_moves (text : Nat → Bytes) (pass : Pass) (dues : List Timer.Due)
    (hsane : l.Sane) (hlegit : ∀ due ∈ dues, l.Legit due) :
    l.Moves cfg read watched (dues.foldl (fire text pass) l) :=
  (fire_along cfg text pass dues hsane hlegit).invariant
    (fun _ due hmoves h => hmoves.trans (fire_moves h.1 text pass due h.2)) .refl

theorem Moves.vacant (h : l.Moves cfg read watched l') {key : Nat}
    (hkey : l.worker.conns.hget key = none) : l'.worker.conns.hget key = none := by
  induction h with
  | refl => exact hkey
  | tail _ hdoes ih =>
    obtain ⟨k, items, calls, entry, hmove, hat⟩ := hdoes
    by_cases hk : key = k
    · subst hk
      rw [hat.sets.entry]
      cases entry with
      | none => rfl
      | some e' =>
        obtain ⟨e, he, -⟩ := hmove.session e' rfl
        rw [ih] at he
        cases he
    · exact (hat.sets.others key hk).trans ih

/-! ## Goodbyes -/

/-- What the drain queues on every connection. -/
def goodbyeItems (text : Bytes) : List Item :=
  [.event text, .closing 4200 "Server is shutting down; please reconnect"]

theorem sends_goodbye (e : WorkerEntry) (text : Bytes) (site : FlushSite) (now : Nat) :
    e.Sends ((e.queueText text now).sendCloseReply 4200
      "Server is shutting down; please reconnect" site now).entry (goodbyeItems text) :=
  ((WorkerEntry.sends_queue e (.event text) now).trans
    (WorkerEntry.sends_queue _
      (.closing 4200 "Server is shutting down; please reconnect") now)).silent
      (WorkerEntry.sends_flushAndArm _ site now)

/-- A vacant key is skipped; a connection stays or goes. -/
theorem drainCloseConnection_cases (text : Nat → Bytes) (pass : Pass) (l : Loop) (key : Nat) :
    drainCloseConnection text pass l key = l ∨
      ∃ e, l.worker.conns.hget key = some e ∧
        ((∃ e', e.Sends e' (goodbyeItems (text key)) ∧
            l.At (drainCloseConnection text pass l key) key (goodbyeItems (text key)) []
              (some e')) ∨
          l.At (drainCloseConnection text pass l key) key (goodbyeItems (text key)) [.remove key]
            none) := by
  unfold drainCloseConnection
  cases hkey : l.worker.conns.hget key with
  | none => exact .inl rfl
  | some e =>
    refine .inr ⟨e, rfl, ?_⟩
    have hsends := sends_goodbye e (text key) (pass.site key) pass.now
    have hsets : l.worker.Sets (l.worker.drainCloseConnection text pass key) key
        ((e.queueText (text key) pass.now).sendCloseReply 4200
          "Server is shutting down; please reconnect" (pass.site key) pass.now).left := by
      rw [Worker.drainCloseConnection, hkey]
      exact l.worker.sets_settle key _ _
    have hat := advance_at hsets (goodbyeItems (text key)) (fateCalls key
      ((e.queueText (text key) pass.now).sendCloseReply 4200
        "Server is shutting down; please reconnect" (pass.site key) pass.now).action)
    by_cases haction : ((e.queueText (text key) pass.now).sendCloseReply 4200
        "Server is shutting down; please reconnect" (pass.site key) pass.now).action = .keep
    · refine .inl ⟨_, sends_left hsends, ?_⟩
      rw [left_keep haction, haction] at hat
      dsimp only
      rw [haction]
      exact hat
    · refine .inr ?_
      rw [left_of_ne haction, fateCalls_of_ne key haction] at hat
      dsimp only
      rw [fateCalls_of_ne key haction]
      exact hat

/-- What goodbyes, removals and the worker's flags leave alone, the shutdown drain does. -/
theorem shutdown_invariant {P : Loop → Prop} (text : Nat → Bytes) (expired : Bool) (pass : Pass)
    (hgoodbye : ∀ l key, P l → P (drainCloseConnection text pass l key))
    (hremove : ∀ (l : Loop) key, P l → P (l.remove key))
    (hflags : ∀ (l : Loop) drainStarted stopped, P l →
      P { l with worker := { l.worker with drainStarted, stopped } })
    (h : P l) : P (l.shutdown text expired pass) := by
  have hstart : P (if l.worker.drainStarted then l else l.startDrain text pass) := by
    split
    · exact h
    · exact hflags _ true _ (run_invariant hgoodbye h l.worker.keys)
  unfold shutdown
  dsimp only
  generalize (if l.worker.drainStarted then l else l.startDrain text pass) = l' at hstart
  split
  · exact hflags _ _ true (run_invariant hremove hstart l'.worker.keys)
  · exact hstart

/-! ## Accepting -/

/-- A connection under a vacant key, with a record of its own. -/
structure Accepted (cfg : LoopConfig) (now key : Nat) (l l' : Loop) : Prop where
  vacant : l.worker.conns.hget key = none
  sets : l.worker.Sets l'.worker key
    (some { conn := .new cfg.tls cfg.highWater cfg.codel })
  wheel : l'.wheel = run TimerWheel.call l.wheel (acceptCalls cfg key now)
  acceptedMs : l'.acceptedMs = Function.update l.acceptedMs key (nowMs now)
  wire : l'.wire = Function.update l.wire key []

theorem accepted_accept (cfg : LoopConfig) (now : Nat) {l : Loop} {key : Nat}
    (hvacant : ¬ l.worker.conns.hexists key) : Accepted cfg now key l (l.accept cfg now key) := by
  rw [accept, if_neg hvacant]
  refine ⟨?_, ?_, rfl, rfl, rfl⟩
  · simpa [Hash.hexists, Option.isSome_iff_ne_none] using hvacant
  · dsimp only
    rw [Worker.accept, if_neg hvacant]
    exact ⟨Hash.hget_hset_self .., fun _ hk => Hash.hget_hset_ne _ _ hk, rfl, rfl⟩

theorem accept_taken {cfg : LoopConfig} {now : Nat} {l : Loop} {key : Nat}
    (h : l.worker.conns.hexists key) : l.accept cfg now key = l := by
  rw [accept, if_pos h]

theorem accept_cases (cfg : LoopConfig) (now : Nat) (l : Loop) (key : Nat) :
    l.accept cfg now key = l ∨ Accepted cfg now key l (l.accept cfg now key) := by
  by_cases h : l.worker.conns.hexists key
  · exact .inl (accept_taken h)
  · exact .inr (accepted_accept cfg now h)

theorem on_acceptCalls (now : Nat) : ∀ c ∈ acceptCalls cfg key now, c.On key := by
  unfold acceptCalls
  split <;> simp [TimerCall.On]

theorem Accepted.sane {now : Nat} (h : Accepted cfg now key l l') (hsane : l.Sane) : l'.Sane := by
  intro k e hk
  by_cases hkey : k = key
  · subst hkey
    rw [h.sets.entry] at hk
    cases hk
    exact ⟨fun h => (by cases h), fun h => (by cases h)⟩
  · exact hsane k e ((h.sets.others k hkey).symm.trans hk)

/-! ## Steps -/

/-- But for the shutdown block, accepting and the timers, a step is a run of moves. -/
theorem step_cases {P : Loop → Prop} (hecho : cfg.echo = false) (hsane : l.Sane) (a : LoopAct)
    (hread : ∀ key ready now, a = .event key ready now →
      (ready.readable ≠ none → read key) ∧ WatchedAt cfg watched l key ready now)
    (h : P l) (hmoves : ∀ l', l.Moves cfg read watched l' → P l')
    (hshutdown : ∀ text expired pass, a = .shutdown text expired pass →
      P (l.shutdown text expired pass))
    (haccept : ∀ (keys : List Nat) now, P (keys.foldl (Loop.accept cfg now) l))
    (htimers : ∀ text pass, P (l.timers cfg text pass)) : P (loopStep cfg l a) := by
  unfold loopStep
  split
  · exact h
  cases a with
  | shutdown text expired pass => exact hshutdown text expired pass rfl
  | accept keys now =>
    dsimp only
    split
    · exact h
    · exact haccept keys now
  | event key ready now =>
    obtain ⟨hreads, hwatched⟩ := hread key ready now rfl
    exact hmoves _ (handleEvent_moves hecho hsane key ready now hreads hwatched)
  | broadcasts budget msgs pass => exact hmoves _ (drainBroadcasts_moves l budget msgs pass)
  | dirty _ mail pass =>
    exact hmoves _ (Moves.foldl (fun l key _ => drainDirty_moves mail pass l key) _ hsane)
  | resolved token gen outcome pass =>
    exact hmoves _ (drainResolved_moves hsane token gen outcome pass)
  | timers text pass => exact htimers text pass

theorem timers_eq (hecho : cfg.echo = false) (l : Loop) (text : Nat → Bytes) (pass : Pass) :
    l.timers cfg text pass = (l.wheel.due (nowMs pass.now)).1.foldl (fire text pass)
      { l with wheel := (l.wheel.due (nowMs pass.now)).2 } := by
  rw [timers, hecho, if_neg Bool.false_ne_true]

end Loop

end Pylon.Transport
