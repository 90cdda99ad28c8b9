import Pylon.Transport.LoopMoves

/-!
# On the way to a session

A connection waits for its request head, may be parked while its app is looked up, and has
a session in the end. What the steps of the loop do to that, to the generations parks are
numbered with and to the handshake deadlines:
most of them `Keeps` everybody where they are; an event is a `Turn` of one connection, a new
one `Arrives`, and a lookup's result `Ends` a park. `Poised` is what they all preserve.
-/

namespace Pylon.Transport

open Pylon.Lib Pylon.Redis

/-! ## Handlers -/

namespace WorkerEntry

/-- Where an entry is on its way to a session. -/
def standing (e : WorkerEntry) : ConnState × Bool × Option (BitVec 64) :=
  (e.state, e.session, e.pendingEstablish)

variable {e e' : WorkerEntry} {r : Handled} (cfg : WorkerConfig)

theorem Sends.standing {items : List Item} (h : e.Sends e' items) : e'.standing = e.standing := by
  rw [WorkerEntry.standing, h.state, h.session, h.pending, WorkerEntry.standing]

/-- The handler left the entry where it is. -/
structure Unmoved (e : WorkerEntry) (r : Handled) : Prop where
  parked : r.parked = false
  standing : r.entry.standing = e.standing

theorem Unmoved.trans (h : e'.Unmoved r) (hstanding : e'.standing = e.standing) : e.Unmoved r :=
  ⟨h.parked, h.standing.trans hstanding⟩

theorem Unmoved.state (h : e.Unmoved r) : r.entry.state = e.state :=
  congrArg Prod.fst h.standing

theorem Unmoved.session (h : e.Unmoved r) : r.entry.session = e.session :=
  congrArg (·.2.1) h.standing

theorem Unmoved.pending (h : e.Unmoved r) : r.entry.pendingEstablish = e.pendingEstablish :=
  congrArg (·.2.2) h.standing

/-- A handler of an open connection only talks. -/
theorem Converses.unmoved {items : List Item} (h : e.Converses items r) : e.Unmoved r :=
  ⟨h.parked, h.sends.standing⟩

theorem unmoved_close (h : e'.standing = e.standing) :
    e.Unmoved (.close e') := ⟨rfl, h⟩

theorem unmoved_flushAndArm (e : WorkerEntry) (site : FlushSite) (now : Nat) :
    e.Unmoved (e.flushAndArm site now) :=
  (converses_flushAndArm e site now).unmoved

theorem unmoved_echoFrames (site : FlushSite) (now : Nat) (frames : List Frame) (wrote : Bool)
    (e : WorkerEntry) : e.Unmoved (echoFrames site now frames wrote e) := by
  induction frames generalizing wrote e with
  | nil =>
    rw [echoFrames]
    split
    · exact unmoved_flushAndArm e site now
    · exact (converses_keep e).unmoved
  | cons _ _ ih =>
    rw [echoFrames]
    split
    all_goals
      first
        | exact (ih _ _).trans rfl
        | exact unmoved_close rfl

theorem unmoved_handleFrames (e : WorkerEntry) (input : Input) (now : Nat) :
    e.Unmoved (e.handleFrames cfg input now) := by
  have hread : (e.readInto cfg input).2.standing = e.standing := rfl
  rw [handleFrames]
  generalize e.readInto cfg input = r at hread ⊢
  obtain ⟨result, e'⟩ := r
  cases result with
  | error => exact unmoved_close hread
  | ok frames =>
    dsimp only
    split
    · exact (converses_fail e' 4100 _ input.site now).unmoved.trans hread
    · split
      · exact (unmoved_echoFrames _ _ _ _ _).trans hread
      · exact (converses_dispatchFrames cfg _ frames input now).unmoved.trans hread

/-- What a handler of readiness does: nothing to the way, or it opens a connection that was
in its handshake, or parks it. -/
inductive Advances (gen : BitVec 64) (e : WorkerEntry) (r : Handled) : Prop
  | unmoved (still : e.Unmoved r)
  | opens (before : e.state = .handshaking) (parked : r.parked = false)
      (state : r.entry.state = .opened) (pending : r.entry.pendingEstablish = e.pendingEstablish)
  | parks (before : e.state = .handshaking) (parked : r.parked = true)
      (state : r.entry.state = .opened) (session : r.entry.session = e.session)
      (pending : r.entry.pendingEstablish = some gen)

/-- Mode `Dispatch` right after the upgrade. -/
theorem advances_establish (hbefore : e.state = .handshaking) (hstate : e'.state = .opened)
    (hsession : e'.session = e.session) (hpending : e'.pendingEstablish = e.pendingEstablish)
    (upgrade : Upgrade) (gen : BitVec 64) (site : FlushSite) (now : Nat) :
    e.Advances gen (e'.establish upgrade gen site now) := by
  cases upgrade with
  | establish text =>
    have hflush := unmoved_flushAndArm { e'.queueText text now with session := true } site now
    exact .opens hbefore hflush.parked (hflush.state.trans hstate) (hflush.pending.trans hpending)
  | reject reject =>
    have hsends := (converses_queueReject e' reject site now).sends
    exact .opens hbefore rfl (hsends.state.trans hstate) (hsends.pending.trans hpending)
  | park =>
    have hflush := unmoved_flushAndArm { e' with pendingEstablish := some gen } site now
    exact .parks hbefore rfl (hflush.state.trans hstate) (hflush.session.trans hsession)
      hflush.pending

/-- A read of the head opens the connection, parks it or leaves it as it was. -/
theorem advances_handleHandshake (hbefore : e.state = .handshaking) (gen : BitVec 64)
    (input : Input) (now : Nat) : e.Advances gen (e.handleHandshake cfg gen input now) := by
  have hread : (e.drainHeadBytes input).2.standing = e.standing := rfl
  generalize hhead : (e.drainHeadBytes input).2 = e' at hread
  refine handleHandshake_cases cfg (motive := fun _ r => e.Advances gen r) hhead
    (.unmoved (unmoved_close hread))
    (.unmoved ((converses_armHandshakeInterest e' input.site now).unmoved.trans hread))
    (fun _ => .unmoved ⟨rfl, hread⟩) ?_ fun key => ?_
  · have hsends := (sends_queue e' (.http cfg.headerFieldsTooLargeResponse) now).silent
      (sends_flushAndArm _ input.site now)
    exact .unmoved ⟨rfl, hsends.standing.trans hread⟩
  · have hsession : e'.session = e.session := congrArg (·.2.1) hread
    have hpending : e'.pendingEstablish = e.pendingEstablish := congrArg (·.2.2) hread
    dsimp only
    split
    · have hflush := fun e' : WorkerEntry => unmoved_flushAndArm e' input.site now
      exact .opens hbefore (hflush _).parked (hflush _).state ((hflush _).pending.trans hpending)
    · refine advances_establish hbefore ?_ ?_ ?_ input.upgrade gen input.site now
      exacts [rfl, hsession, hpending]

theorem advances_handleReadable (e : WorkerEntry) (gen : BitVec 64) (input : Input) (now : Nat) :
    e.Advances gen (e.handleReadable cfg gen input now) := by
  rw [handleReadable]
  cases hstate : e.state with
  | handshaking => exact advances_handleHandshake cfg hstate gen input now
  | opened => exact .unmoved (unmoved_handleFrames cfg e input now)

theorem advances_handleWritable (e : WorkerEntry) (gen : BitVec 64) (input : Input) (now : Nat) :
    e.Advances gen (e.handleWritable cfg gen input now) := by
  rw [handleWritable]
  cases hstate : e.state with
  | handshaking => exact advances_handleHandshake cfg hstate gen input now
  | opened => exact .unmoved (unmoved_flushAndArm e input.site now)

end WorkerEntry

/-! ## Generations -/

namespace Worker

theorem nextGen_foldDelta (w : Worker) (key : Nat) : (w.foldDelta key).nextGen = w.nextGen := by
  rw [foldDelta]
  split <;> rfl

theorem nextGen_release (w : Worker) (key : Nat) : (w.release key).nextGen = w.nextGen := by
  rw [release]
  split <;> rfl

theorem nextGen_settle (w : Worker) (key : Nat) (action : Fate) :
    (w.settle key action).nextGen = w.nextGen := by
  cases action with
  | keep => exact nextGen_foldDelta w key
  | close | handoff => exact (nextGen_release _ key).trans (nextGen_foldDelta w key)

theorem nextGen_put {w : Worker} {key : Nat} {r : Handled} (h : r.parked = false) :
    (w.put key r).nextGen = w.nextGen := by
  rw [put, h]
  rfl

end Worker

/-! ## Handshake deadlines -/

/-- The call is about this connection and sets it no handshake deadline. -/
def TimerCall.Disarms (key : Nat) (c : TimerCall) : Prop :=
  c.On key ∧ ∀ conn deadlineMs, c ≠ .armHandshake conn deadlineMs

namespace TimerWheel

variable {key : Nat}

theorem handshake_call_ne {c : TimerCall} {k : Nat} (hc : c.On key) (hne : k ≠ key)
    (w : TimerWheel) :
    (w.call c).handshake.hget k = w.handshake.hget k := by
  cases c with
  | due => exact hc.elim
  | touch conn nowMs | markPingSent conn nowMs | armLifetime conn nowMs | clearLiveness conn =>
    rfl
  | armHandshake conn =>
    obtain rfl : conn = key := hc
    exact Hash.hget_hset_ne _ _ hne
  | clearHandshake conn | remove conn =>
    obtain rfl : conn = key := hc
    exact Hash.hget_hdel_ne _ hne

theorem handshake_call_self {c : TimerCall} (hc : c.Disarms key) (w : TimerWheel) :
    (w.call c).handshake.hget key = w.handshake.hget key ∨
      (w.call c).handshake.hget key = none := by
  obtain ⟨hon, harms⟩ := hc
  cases c with
  | due => exact hon.elim
  | touch conn nowMs | markPingSent conn nowMs | armLifetime conn nowMs | clearLiveness conn =>
    exact .inl rfl
  | armHandshake conn deadlineMs => exact absurd rfl (harms conn deadlineMs)
  | clearHandshake conn | remove conn =>
    obtain rfl : conn = key := hon
    exact .inr (Hash.hget_hdel_self _ _)

theorem handshake_calls_ne {calls : List TimerCall} {k : Nat} (h : ∀ c ∈ calls, c.On key)
    (hne : k ≠ key) (w : TimerWheel) :
    (run call w calls).handshake.hget k = w.handshake.hget k := by
  induction calls generalizing w with
  | nil => rfl
  | cons c _ ih =>
    exact (ih (fun c' hc' => h c' (List.mem_cons_of_mem c hc')) (w.call c)).trans
      (handshake_call_ne (h c List.mem_cons_self) hne w)

theorem handshake_calls_self {calls : List TimerCall} (h : ∀ c ∈ calls, c.Disarms key)
    (w : TimerWheel) :
    (run call w calls).handshake.hget key = w.handshake.hget key ∨
      (run call w calls).handshake.hget key = none := by
  induction calls generalizing w with
  | nil => exact .inl rfl
  | cons c _ ih =>
    have hrest := ih (fun c' hc' => h c' (List.mem_cons_of_mem c hc')) (w.call c)
    rcases hrest with hsame | hnone
    · rcases handshake_call_self (h c List.mem_cons_self) w with hfirst | hfirst
      · exact .inl (hsame.trans hfirst)
      · exact .inr (hsame.trans hfirst)
    · exact .inr hnone

theorem handshake_remove (w : TimerWheel) (calls : List TimerCall) (key : Nat) :
    (run call w (calls ++ [.remove key])).handshake.hget key = none := by
  rw [run_append]
  exact Hash.hget_hdel_self _ _

end TimerWheel

/-! ## Steps that keep everybody -/

namespace Loop

def standing (l : Loop) (key : Nat) : Option (ConnState × Bool × Option (BitVec 64)) :=
  (l.worker.conns.hget key).map WorkerEntry.standing

/-- The handshake deadline under a key. -/
def armed (l : Loop) (key : Nat) : Option Nat := l.wheel.handshake.hget key

/-- Everybody is where they were, or gone with their deadline. -/
structure Keeps (l l' : Loop) : Prop where
  nextGen : l'.worker.nextGen = l.worker.nextGen
  slot : ∀ key,
    l'.standing key = l.standing key ∧ (l'.armed key = l.armed key ∨ l'.armed key = none) ∨
      l'.standing key = none ∧ l'.armed key = none

theorem Keeps.refl (l : Loop) : l.Keeps l := ⟨rfl, fun _ => .inl ⟨rfl, .inl rfl⟩⟩

theorem Keeps.trans {l l' l'' : Loop} (h : l.Keeps l') (h' : l'.Keeps l'') : l.Keeps l'' := by
  refine ⟨h'.nextGen.trans h.nextGen, fun key => ?_⟩
  rcases h'.slot key with ⟨hstanding', harmed'⟩ | hgone
  · rcases h.slot key with ⟨hstanding, harmed⟩ | ⟨hstanding, harmed⟩
    · refine .inl ⟨hstanding'.trans hstanding, ?_⟩
      rcases harmed' with hsame | hnone
      · exact harmed.imp hsame.trans hsame.trans
      · exact .inr hnone
    · refine .inr ⟨hstanding'.trans hstanding, ?_⟩
      rcases harmed' with hsame | hnone
      · exact hsame.trans harmed
      · exact hnone
  · exact .inr hgone

theorem Keeps.foldl {α : Type*} {f : Loop → α → Loop} (hf : ∀ (l : Loop) (a : α), l.Keeps (f l a))
    (as : List α) (l : Loop) : l.Keeps (as.foldl f l) :=
  run_invariant (fun (l' : Loop) a (h : l.Keeps l') => h.trans (hf l' a)) (.refl l) as

theorem Keeps.foldl_fst {α : Type*} {f : Loop × List Nat → α → Loop × List Nat}
    (hf : ∀ (s : Loop × List Nat) (a : α), s.1.Keeps (f s a).1) (as : List α)
    (s : Loop × List Nat) : s.1.Keeps (as.foldl f s).1 :=
  run_invariant (fun (s' : Loop × List Nat) a (h : s.1.Keeps s'.1) => h.trans (hf s' a))
    (.refl s.1) as

/-- Everybody but `key` is where they were. -/
def Elsewhere (l l' : Loop) (key : Nat) : Prop :=
  ∀ k, k ≠ key → l'.standing k = l.standing k ∧ l'.armed k = l.armed k

variable {e : WorkerEntry} {entry : Option WorkerEntry} {calls : List TimerCall} {r : Handled}
  {gen : BitVec 64} {w : Worker}

theorem elsewhere_advance {l : Loop} {key : Nat} (hsets : l.worker.Sets w key entry)
    (items : List Item) (hcalls : ∀ c ∈ calls, c.On key) :
    l.Elsewhere (l.advance w key items calls) key :=
  fun k hk => ⟨congrArg (Option.map _) (hsets.others k hk),
    TimerWheel.handshake_calls_ne hcalls hk l.wheel⟩

theorem standing_advance {l : Loop} {key : Nat} (hsets : l.worker.Sets w key entry)
    (items : List Item) (calls : List TimerCall) :
    (l.advance w key items calls).standing key = entry.map WorkerEntry.standing :=
  congrArg (Option.map _) hsets.entry

/-- A step at one key: it stays where it is, or goes. -/
theorem Keeps.advance {l : Loop} {key : Nat} (hsets : l.worker.Sets w key entry)
    (hgen : w.nextGen = l.worker.nextGen) (items : List Item) (hcalls : ∀ c ∈ calls, c.Disarms key)
    (hslot : entry.map WorkerEntry.standing = l.standing key ∨ entry = none ∧ ∃ before,
      calls = before ++ [.remove key]) :
    l.Keeps (l.advance w key items calls) := by
  refine ⟨hgen, fun k => ?_⟩
  by_cases hk : k = key
  · subst hk
    have hstanding := standing_advance hsets items calls
    rcases hslot with hsame | ⟨rfl, before, rfl⟩
    · exact .inl ⟨hstanding.trans hsame, TimerWheel.handshake_calls_self hcalls l.wheel⟩
    · exact .inr ⟨hstanding, TimerWheel.handshake_remove l.wheel before k⟩
  · obtain ⟨hstanding, harmed⟩ := elsewhere_advance hsets items (fun c hc => (hcalls c hc).1) k hk
    exact .inl ⟨hstanding, .inl harmed⟩

theorem standing_left (h : r.action = .keep) :
    r.left.map WorkerEntry.standing = some r.entry.standing := by
  rw [left_keep h]
  rfl

theorem disarms_remove {key : Nat} : TimerCall.Disarms key (.remove key) :=
  ⟨rfl, fun _ _ h => by cases h⟩

/-- What an unmoved handler leaves, with the calls of its fate. -/
theorem keeps_settle {l : Loop} {key : Nat} (hkey : l.worker.conns.hget key = some e)
    (h : e.Unmoved r) (action : Fate) (items : List Item) (hcalls : ∀ c ∈ calls, c.Disarms key)
    (hgone : action ≠ .keep → ∃ before, calls = before ++ [.remove key]) :
    l.Keeps (l.advance ((l.worker.put key r).settle key action) key items calls) := by
  refine Keeps.advance (l.worker.sets_settle key r action) ?_ items hcalls ?_
  · exact (Worker.nextGen_settle _ key action).trans (Worker.nextGen_put h.parked)
  · by_cases hkeep : action = .keep
    · refine .inl ?_
      rw [standing, hkey, standing_left hkeep]
      exact congrArg some h.standing
    · exact .inr ⟨left_of_ne hkeep, hgone hkeep⟩

theorem disarms_of_mem_singleton {key : Nat} {c d : TimerCall} (hd : d.Disarms key)
    (hc : c ∈ [d]) : c.Disarms key := by
  obtain rfl := List.mem_singleton.mp hc
  exact hd

theorem disarms_fateCalls (key : Nat) (action : Fate) :
    ∀ c ∈ fateCalls key action, c.Disarms key := by
  intro c hc
  cases action with
  | keep => exact absurd hc List.not_mem_nil
  | close | handoff => exact disarms_of_mem_singleton disarms_remove hc

theorem keeps_remove (l : Loop) (key : Nat) : l.Keeps (l.remove key) :=
  Keeps.advance (l.worker.sets_release key) (Worker.nextGen_release l.worker key) []
    (fun _ hc => disarms_of_mem_singleton disarms_remove hc) (.inr ⟨rfl, [], rfl⟩)

theorem keeps_calls (l : Loop) (key : Nat) {c : TimerCall} (hc : c.Disarms key) :
    l.Keeps (l.advance l.worker key [] [c]) :=
  Keeps.advance (.self l.worker key) rfl [] (fun _ hmem => disarms_of_mem_singleton hc hmem)
    (.inl rfl)

theorem keeps_deliver (budget now : Nat) (msg : BroadcastMsg) (s : Loop × List Nat)
    (sub : Subscriber) : s.1.Keeps (deliver budget now msg s sub).1 := by
  have hsame : ∀ items, s.1.Keeps (s.1.advance s.1.worker sub.token items []) := fun items =>
    Keeps.advance (.self s.1.worker sub.token) rfl items (fun _ hc => absurd hc List.not_mem_nil)
      (.inl rfl)
  unfold deliver Worker.deliver
  dsimp only
  split
  · exact hsame _
  · cases hopen : s.1.worker.openConn sub.token with
    | none => exact hsame _
    | some e =>
      cases msg.frameFor sub.version with
      | none => exact hsame _
      | some frame =>
        dsimp only
        split
        · exact hsame _
        · exact keeps_settle (Worker.session_of_openConn hopen).1
            (WorkerEntry.Unmoved.mk rfl rfl : e.Unmoved (.keep (e.queue frame now))) .keep _
            (fun _ hc => absurd hc List.not_mem_nil) (fun h => absurd rfl h)

theorem keeps_flushTouched (pass : Pass) (s : Loop × List Nat) (token : Nat) :
    s.1.Keeps (flushTouched pass s token).1 := by
  unfold flushTouched Worker.flushTouched
  cases hkey : s.1.worker.conns.hget token with
  | none =>
    exact Keeps.advance (.self s.1.worker token) rfl [] (fun _ hc => absurd hc List.not_mem_nil)
      (.inl rfl)
  | some e =>
    exact keeps_settle hkey (WorkerEntry.unmoved_flushAndArm e (pass.site token) pass.now) .keep []
      (fun _ hc => absurd hc List.not_mem_nil) (fun h => absurd rfl h)

theorem keeps_drainBroadcasts (l : Loop) (budget : Nat) (msgs : List BroadcastMsg) (pass : Pass) :
    l.Keeps (l.drainBroadcasts budget msgs pass) := by
  have hinbox := Keeps.foldl_fst (fun s (msg : BroadcastMsg) =>
    Keeps.foldl_fst (keeps_deliver budget pass.now msg) msg.subs s) msgs (l, [])
  unfold drainBroadcasts
  generalize msgs.foldl (fun s msg => msg.subs.foldl (deliver budget pass.now msg) s) (l, []) = s
    at hinbox
  have hflush := Keeps.foldl_fst (keeps_flushTouched pass) (pass.walk s.2) (s.1, [])
  exact (hinbox.trans hflush).trans (Keeps.foldl keeps_remove _ _)

theorem keeps_drainDirty (mail : Nat → List Mail) (pass : Pass) (l : Loop) (key : Nat) :
    l.Keeps (drainDirty mail pass l key) := by
  unfold drainDirty
  cases hopen : l.worker.openConn key with
  | none => exact .refl l
  | some e =>
    have hunmoved := (e.converses_drainSession (mail key) (pass.site key) pass.now).unmoved
    rw [Worker.drainDirty, hopen]
    exact keeps_settle (Worker.session_of_openConn hopen).1 hunmoved _ _ (disarms_fateCalls key _)
      (fun h => ⟨[], fateCalls_of_ne key h⟩)

theorem keeps_closeDue (l : Loop) (key code : Nat) (reason : String) (text : Option Bytes)
    (pass : Pass) : l.Keeps (l.closeDue key code reason text pass) := by
  unfold closeDue
  cases hkey : l.worker.conns.hget key with
  | none => exact keeps_remove l key
  | some =>
    refine Keeps.advance (Worker.sets_closeDue hkey code reason text pass) ?_ _
      (fun _ hc => disarms_of_mem_singleton disarms_remove hc) (.inr ⟨rfl, [], rfl⟩)
    rw [Worker.closeDue, hkey]
    exact (Worker.nextGen_settle _ key _).trans
      (Worker.nextGen_put (WorkerEntry.unmoved_flushAndArm _ (pass.site key) pass.now).parked)

theorem keeps_pingDue (l : Loop) (key : Nat) (text : Bytes) (pass : Pass) :
    l.Keeps (l.pingDue key text pass) := by
  unfold pingDue
  cases hopen : l.worker.openConn key with
  | none => exact keeps_calls l key ⟨rfl, fun _ _ h => by cases h⟩
  | some e =>
    have hunmoved : e.Unmoved
        ((e.queueText text pass.now).flushAndArm (pass.site key) pass.now) :=
      (WorkerEntry.unmoved_flushAndArm _ (pass.site key) pass.now).trans rfl
    rw [Worker.fireDue, hopen]
    refine keeps_settle (Worker.session_of_openConn hopen).1 hunmoved _ _ ?_ ?_
    · intro c hc
      split at hc
      · exact disarms_of_mem_singleton disarms_remove hc
      · exact disarms_of_mem_singleton (d := .markPingSent key _) ⟨rfl, fun _ _ h => by cases h⟩ hc
    · intro hne
      have hclose := (WorkerEntry.flushAndArm_action (e.queueText text pass.now) (pass.site key)
        pass.now).resolve_left hne
      exact ⟨[], if_pos hclose⟩

theorem keeps_handshakeDue (l : Loop) (key : Nat) : l.Keeps (l.handshakeDue key) := by
  have hclear : l.Keeps (l.advance l.worker key [] [.clearHandshake key]) :=
    keeps_calls l key ⟨rfl, fun _ _ h => by cases h⟩
  unfold handshakeDue
  cases l.worker.conns.hget key with
  | none => exact hclear
  | some =>
    dsimp only
    split
    · exact hclear
    · exact keeps_remove l key

theorem keeps_fire (text : Nat → Bytes) (pass : Pass) (l : Loop) (due : Timer.Due) :
    l.Keeps (fire text pass l due) := by
  cases due with
  | ping key => exact keeps_pingDue l key _ pass
  | close4201 key | close4202 key => exact keeps_closeDue l key _ _ _ pass
  | handshakeTimeout key => exact keeps_handshakeDue l key

theorem keeps_timers (cfg : LoopConfig) (l : Loop) (text : Nat → Bytes) (pass : Pass) :
    l.Keeps (l.timers cfg text pass) := by
  unfold timers
  split
  · exact .refl l
  · -- reading the wheel takes slots off its timeline only
    have hdue : l.Keeps { l with wheel := (l.wheel.due (nowMs pass.now)).2 } :=
      ⟨rfl, fun _ => .inl ⟨rfl, .inl rfl⟩⟩
    exact hdue.trans (Keeps.foldl (keeps_fire text pass) _ _)

theorem keeps_drainCloseConnection (text : Nat → Bytes) (pass : Pass) (l : Loop) (key : Nat) :
    l.Keeps (drainCloseConnection text pass l key) := by
  unfold drainCloseConnection
  cases hkey : l.worker.conns.hget key with
  | none => exact .refl l
  | some e =>
    have hunmoved : e.Unmoved ((e.queueText (text key) pass.now).sendCloseReply 4200
        "Server is shutting down; please reconnect" (pass.site key) pass.now) :=
      ⟨(WorkerEntry.unmoved_flushAndArm _ (pass.site key) pass.now).parked,
        (sends_goodbye e (text key) (pass.site key) pass.now).standing⟩
    rw [Worker.drainCloseConnection, hkey]
    exact keeps_settle hkey hunmoved _ _ (disarms_fateCalls key _)
      (fun h => ⟨[], fateCalls_of_ne key h⟩)

theorem keeps_shutdown (l : Loop) (text : Nat → Bytes) (expired : Bool) (pass : Pass) :
    l.Keeps (l.shutdown text expired pass) := by
  exact shutdown_invariant text expired pass
    (fun l' key h => h.trans (keeps_drainCloseConnection text pass l' key))
    (fun l' key h => h.trans (keeps_remove l' key)) (fun _ _ _ h => ⟨h.nextGen, h.slot⟩) (.refl l)

/-! ## Places -/

/-- Where a slot may be, with its handshake deadline. Without a session and not parked
there are only an echo's connections. -/
inductive Place : Option (ConnState × Bool × Option (BitVec 64)) → Option Nat → Prop
  | vacant : Place none none
  | handshaking (deadline : Option Nat) : Place (some (.handshaking, false, none)) deadline
  | parked (gen : BitVec 64) (deadline : Option Nat) :
      Place (some (.opened, false, some gen)) deadline
  | bare (deadline : Option Nat) : Place (some (.opened, false, none)) deadline
  | live : Place (some (.opened, true, none)) none

theorem Place.disarm {standing : Option (ConnState × Bool × Option (BitVec 64))}
    {deadline : Option Nat} (h : Place standing deadline) : Place standing none := by
  cases h with
  | vacant => exact .vacant
  | handshaking => exact .handshaking none
  | parked gen => exact .parked gen none
  | bare => exact .bare none
  | live => exact .live

/-- Every slot is in one of these places. -/
def Poised (l : Loop) : Prop := ∀ key, Place (l.standing key) (l.armed key)

variable {l l' : Loop}

theorem Poised.keeps (h : l.Poised) (hkeeps : l.Keeps l') : l'.Poised := by
  intro key
  have hplace := h key
  rcases hkeeps.slot key with ⟨hstanding, hsame | hnone⟩ | ⟨hstanding, hnone⟩
  · rw [hstanding, hsame]
    exact hplace
  · rw [hstanding, hnone]
    exact hplace.disarm
  · rw [hstanding, hnone]
    exact .vacant

theorem Poised.elsewhere (h : l.Poised) {key : Nat} (hothers : l.Elsewhere l' key)
    (hplace : Place (l'.standing key) (l'.armed key)) : l'.Poised := by
  intro k
  by_cases hk : k = key
  · rw [hk]
    exact hplace
  · rw [(hothers k hk).1, (hothers k hk).2]
    exact h k

theorem standing_of_hget {key : Nat} (h : l.worker.conns.hget key = some e) :
    l.standing key = some (e.state, e.session, e.pendingEstablish) := by
  rw [standing, h]
  rfl

theorem Poised.handshaking (h : l.Poised) {key : Nat} (hkey : l.worker.conns.hget key = some e)
    (hstate : e.state = .handshaking) : e.session = false ∧ e.pendingEstablish = none := by
  have hplace := h key
  rw [standing_of_hget hkey, hstate] at hplace
  generalize e.session = session, e.pendingEstablish = pending at hplace
  cases hplace
  exact ⟨rfl, rfl⟩

theorem Poised.parked (h : l.Poised) {key : Nat} (hkey : l.worker.conns.hget key = some e)
    (hpending : e.pendingEstablish = some gen) : e.state = .opened ∧ e.session = false := by
  have hplace := h key
  rw [standing_of_hget hkey, hpending] at hplace
  generalize e.state = state, e.session = session at hplace
  cases hplace
  exact ⟨rfl, rfl⟩

/-! ## Events -/

/-- What an event can do to the connection it is about; `true` if a lookup was spawned. A
connection that parks may be gone at once, when the response cannot be written. -/
inductive Turn (l l' : Loop) (key : Nat) : Bool → Prop
  | keeps (keeps : l.Keeps l') : Turn l l' key false
  | opens (session : Bool) (before : l.standing key = some (.handshaking, false, none))
      (after : l'.standing key = some (.opened, session, none))
      (excused : session = true → l'.armed key = none) (others : l.Elsewhere l' key)
      (nextGen : l'.worker.nextGen = l.worker.nextGen) : Turn l l' key false
  | parks (before : l.standing key = some (.handshaking, false, none))
      (after : l'.standing key = some (.opened, false, some l.worker.nextGen))
      (others : l.Elsewhere l' key)
      (nextGen : l'.worker.nextGen = l.worker.nextGen + 1) : Turn l l' key true
  | flees (before : l.standing key = some (.handshaking, false, none))
      (after : l'.standing key = none) (disarmed : l'.armed key = none)
      (others : l.Elsewhere l' key)
      (nextGen : l'.worker.nextGen = l.worker.nextGen + 1) : Turn l l' key true

theorem Turn.poised {key : Nat} {parked : Bool} (h : l.Turn l' key parked) (hpoised : l.Poised) :
    l'.Poised := by
  cases h with
  | keeps hkeeps => exact hpoised.keeps hkeeps
  | opens session _ after excused others =>
    refine hpoised.elsewhere others ?_
    rw [after]
    cases session with
    | false => exact .bare _
    | true =>
      rw [excused rfl]
      exact .live
  | parks _ after others =>
    refine hpoised.elsewhere others ?_
    rw [after]
    exact .parked _ _
  | flees _ after disarmed others =>
    refine hpoised.elsewhere others ?_
    rw [after, disarmed]
    exact .vacant

variable {cfg : LoopConfig} {key now : Nat}

theorem disarms_touchCalls : ∀ c ∈ touchCalls cfg key now, c.Disarms key := by
  intro c hc
  rw [touchCalls] at hc
  split at hc
  · exact absurd hc List.not_mem_nil
  · exact disarms_of_mem_singleton (d := .touch key _) ⟨rfl, fun _ _ h => by cases h⟩ hc

theorem disarms_lifetimeCalls : ∀ c ∈ lifetimeCalls cfg key now, c.Disarms key := by
  intro c hc
  rw [lifetimeCalls] at hc
  split at hc
  · exact disarms_of_mem_singleton (d := .armLifetime key _) ⟨rfl, fun _ _ h => by cases h⟩ hc
  · exact absurd hc List.not_mem_nil

theorem disarms_establishCalls : ∀ c ∈ establishCalls cfg key now e r, c.Disarms key := by
  intro c hc
  rw [establishCalls] at hc
  split at hc
  · rcases List.mem_cons.mp hc with rfl | hc
    · exact ⟨rfl, fun _ _ h => by cases h⟩
    · exact disarms_lifetimeCalls c hc
  · exact absurd hc List.not_mem_nil

theorem handshake_cleared {before after : List TimerCall} (hafter : ∀ c ∈ after, c.Disarms key)
    (w : TimerWheel) :
    (run TimerWheel.call w (before ++ .clearHandshake key :: after)).handshake.hget key = none := by
  rw [run_append, run_cons]
  have hclear : ((run TimerWheel.call w before).call (.clearHandshake key)).handshake.hget key =
      none := Hash.hget_hdel_self _ _
  rcases TimerWheel.handshake_calls_self hafter
    ((run TimerWheel.call w before).call (.clearHandshake key)) with hsame | hnone
  · exact hsame.trans hclear
  · exact hnone

/-- The turn a handler of readiness takes. -/
theorem turn_of_advances {touches : List TimerCall} (hpoised : l.Poised)
    (hkey : l.worker.conns.hget key = some e) (hadvances : e.Advances l.worker.nextGen r)
    (hsets : l.worker.Sets w key r.left) (hgen : w.nextGen = (l.worker.put key r).nextGen)
    (items : List Item) (htouches : ∀ c ∈ touches, c.Disarms key) :
    l.Turn (l.advance w key items
      (touches ++ (establishCalls cfg key now e r ++ fateCalls key r.action))) key r.parked := by
  have hcalls : ∀ c ∈ touches ++ (establishCalls cfg key now e r ++ fateCalls key r.action),
      c.Disarms key := by
    intro c hc
    rcases List.mem_append.mp hc with hc | hc
    · exact htouches c hc
    · rcases List.mem_append.mp hc with hc | hc
      · exact disarms_establishCalls c hc
      · exact disarms_fateCalls key r.action c hc
  have hgone (h : r.action ≠ .keep) : r.left = none ∧ ∃ before,
      touches ++ (establishCalls cfg key now e r ++ fateCalls key r.action) =
        before ++ [.remove key] :=
    ⟨left_of_ne h, touches ++ establishCalls cfg key now e r, by
      rw [fateCalls_of_ne key h, List.append_assoc]⟩
  have hothers := elsewhere_advance hsets items (fun c hc => (hcalls c hc).1)
  have hafter := standing_advance hsets items
    (touches ++ (establishCalls cfg key now e r ++ fateCalls key r.action))
  have hleft (h : r.action = .keep) : r.left.map WorkerEntry.standing =
      some (r.entry.state, r.entry.session, r.entry.pendingEstablish) := standing_left h
  cases hadvances with
  | unmoved still =>
    have hsame : w.nextGen = l.worker.nextGen := hgen.trans (Worker.nextGen_put still.parked)
    rw [still.parked]
    refine .keeps (.advance hsets hsame items hcalls ?_)
    by_cases hkeep : r.action = .keep
    · refine .inl ?_
      rw [standing_left hkeep, standing, hkey]
      exact congrArg some still.standing
    · exact .inr (hgone hkeep)
  | opens before parked state pending =>
    have hsame : w.nextGen = l.worker.nextGen := hgen.trans (Worker.nextGen_put parked)
    obtain ⟨hsession, hpending⟩ := hpoised.handshaking hkey before
    rw [parked]
    by_cases hkeep : r.action = .keep
    · refine .opens r.entry.session ?_ ?_ (fun hlive => ?_) hothers hsame
      · rw [standing_of_hget hkey, before, hsession, hpending]
      · rw [hafter, hleft hkeep, state, pending, hpending]
      · -- the call that clears the deadline comes with the session
        rw [armed, advance, establishCalls, if_pos ⟨hsession, hlive⟩, List.cons_append]
        refine handshake_cleared (fun c hc => ?_) l.wheel
        rcases List.mem_append.mp hc with hc | hc
        · exact disarms_lifetimeCalls c hc
        · exact disarms_fateCalls key r.action c hc
    · exact .keeps (.advance hsets hsame items hcalls (.inr (hgone hkeep)))
  | parks before parked state session pending =>
    obtain ⟨hsession, hpending⟩ := hpoised.handshaking hkey before
    have hnext : w.nextGen = l.worker.nextGen + 1 := by
      rw [hgen, Worker.put, parked]
      rfl
    have hbefore : l.standing key = some (.handshaking, false, none) := by
      rw [standing_of_hget hkey, before, hsession, hpending]
    rw [parked]
    by_cases hkeep : r.action = .keep
    · refine .parks hbefore ?_ hothers hnext
      rw [hafter, hleft hkeep, state, session, pending, hsession]
    · obtain ⟨hnone, calls, hremove⟩ := hgone hkeep
      refine .flees hbefore ?_ ?_ hothers hnext
      · rw [hafter, hnone]
        rfl
      · rw [armed, advance, hremove]
        exact TimerWheel.handshake_remove l.wheel calls key

/-- `handle_handshake` spawned a lookup in the readable path. -/
def readableParks (cfg : LoopConfig) (l : Loop) (key : Nat) (input : Input) (now : Nat) : Bool :=
  match l.worker.conns.hget key with
  | none => false
  | some e => (e.handleReadable cfg.toWorkerConfig l.worker.nextGen input now).parked

def writableParks (cfg : LoopConfig) (l : Loop) (key : Nat) (input : Input) (now : Nat) : Bool :=
  match l.worker.conns.hget key with
  | none => false
  | some e => (e.handleWritable cfg.toWorkerConfig l.worker.nextGen input now).parked

theorem turn_readable (hpoised : l.Poised) (input : Input) :
    l.Turn (l.readable cfg key input now) key (l.readableParks cfg key input now) := by
  unfold readable readableParks
  cases hkey : l.worker.conns.hget key with
  | none => exact .keeps (.refl l)
  | some e =>
    refine turn_of_advances hpoised hkey (e.advances_handleReadable cfg.toWorkerConfig _ input now)
      (Worker.sets_readable cfg.toWorkerConfig hkey input now) ?_ _ disarms_touchCalls
    rw [Worker.readable, hkey]
    dsimp only
    split
    · exact Worker.nextGen_foldDelta _ key
    · exact Worker.nextGen_release _ key
    · exact Worker.nextGen_release _ key

theorem turn_writable (hpoised : l.Poised) (input : Input) :
    l.Turn (l.writable cfg key input now) key (l.writableParks cfg key input now) := by
  unfold writable writableParks
  cases hkey : l.worker.conns.hget key with
  | none => exact .keeps (.refl l)
  | some e =>
    have htouches : ∀ c ∈ ([] : List TimerCall), c.Disarms key :=
      fun _ hc => absurd hc List.not_mem_nil
    refine turn_of_advances hpoised hkey
      (e.advances_handleWritable cfg.toWorkerConfig _ input now)
      (Worker.sets_writable cfg.toWorkerConfig hkey input now) ?_ _ htouches
    rw [Worker.writable, hkey]
    exact Worker.nextGen_settle _ key _

/-! ## Accepting -/

/-- A new connection under a vacant key. -/
structure Arrives (l l' : Loop) (key : Nat) : Prop where
  before : l.standing key = none
  after : l'.standing key = some (.handshaking, false, none)
  others : l.Elsewhere l' key
  nextGen : l'.worker.nextGen = l.worker.nextGen

theorem Arrives.poised (h : l.Arrives l' key) (hpoised : l.Poised) : l'.Poised := by
  refine hpoised.elsewhere h.others ?_
  rw [h.after]
  exact .handshaking _

theorem arrives_accept (h : ¬ l.worker.conns.hexists key) :
    l.Arrives (l.accept cfg now key) key := by
  have hacc := accepted_accept cfg now h
  refine ⟨?_, ?_, fun k hk => ⟨?_, ?_⟩, ?_⟩
  · rw [standing, hacc.vacant]
    rfl
  · rw [standing, hacc.sets.entry]
    rfl
  · exact congrArg (Option.map _) (hacc.sets.others k hk)
  · rw [armed, hacc.wheel]
    exact TimerWheel.handshake_calls_ne (on_acceptCalls now) hk l.wheel
  · rw [accept, if_neg h]
    rw [Worker.accept, if_neg h]

/-! ## Resumed lookups -/

/-- The generation of the park under a key. -/
def pending (l : Loop) (key : Nat) : Option (BitVec 64) :=
  (l.worker.conns.hget key).bind WorkerEntry.pendingEstablish

/-- The end of a park: a session without a handshake deadline, or a vacant key. -/
structure Ends (l l' : Loop) (key : Nat) (gen : BitVec 64) : Prop where
  before : l.standing key = some (.opened, false, some gen)
  after : l'.standing key = some (.opened, true, none) ∨ l'.standing key = none
  disarmed : l'.armed key = none
  others : l.Elsewhere l' key
  nextGen : l'.worker.nextGen = l.worker.nextGen

theorem Ends.poised (h : l.Ends l' key gen) (hpoised : l.Poised) : l'.Poised := by
  refine hpoised.elsewhere h.others ?_
  rw [h.disarmed]
  rcases h.after with hlive | hgone
  · rw [hlive]
    exact .live
  · rw [hgone]
    exact .vacant

theorem resumed_parked (e : WorkerEntry) (outcome : Except Reject Bytes) (site : FlushSite)
    (now : Nat) : (resumed e outcome site now).parked = false := by
  cases outcome with
  | error => rfl
  | ok => exact (WorkerEntry.unmoved_flushAndArm _ site now).parked

theorem resumed_live (hstate : e.state = .opened) {outcome : Except Reject Bytes} {site : FlushSite}
    (hkeep : (resumed e outcome site now).action = .keep) :
    (resumed e outcome site now).entry.standing = (.opened, true, none) := by
  cases outcome with
  | error =>
    rw [resumed_error] at hkeep
    cases hkeep
  | ok text =>
    have hflush := WorkerEntry.unmoved_flushAndArm
      { ({ e with pendingEstablish := none } : WorkerEntry).queueText text now with
        session := true } site now
    rw [← hstate]
    exact hflush.standing

/-- The outcome a connection waits for ends its park. -/
theorem ends_drainResolved (hpoised : l.Poised) (h : l.pending key = some gen)
    (outcome : Except Reject Bytes) (pass : Pass) :
    l.Ends (l.drainResolved cfg key gen outcome pass) key gen := by
  obtain ⟨e, hkey, hpending⟩ := Option.bind_eq_some_iff.mp h
  obtain ⟨hstate, hsession⟩ := hpoised.parked hkey hpending
  have hbefore : l.standing key = some (.opened, false, some gen) := by
    rw [standing_of_hget hkey, hstate, hsession, hpending]
  have hparked := resumed_parked e outcome (pass.site key) pass.now
  have hlive : (resumed e outcome (pass.site key) pass.now).action = .keep →
      (resumed e outcome (pass.site key) pass.now).entry.standing = (.opened, true, none) :=
    resumed_live hstate
  have hworker : l.worker.drainResolved key gen outcome pass =
      (l.worker.put key (resumed e outcome (pass.site key) pass.now)).settle key
        (resumed e outcome (pass.site key) pass.now).action := by
    rw [Worker.drainResolved, hkey]
    exact if_neg (not_not.mpr hpending)
  unfold drainResolved
  rw [hkey]
  dsimp only
  rw [if_neg (not_not.mpr hpending), hworker]
  generalize resumed e outcome (pass.site key) pass.now = r at hparked hlive
  have hsets := l.worker.sets_settle key r r.action
  have hgen : ((l.worker.put key r).settle key r.action).nextGen = l.worker.nextGen :=
    (Worker.nextGen_settle _ key r.action).trans (Worker.nextGen_put hparked)
  have hgone (hne : r.action ≠ .keep) :
      l.Ends (l.advance ((l.worker.put key r).settle key r.action) key (resumedItems outcome)
        [.remove key]) key gen := by
    refine ⟨hbefore, .inr ?_, TimerWheel.handshake_remove l.wheel [] key, ?_, hgen⟩
    · rw [standing_advance hsets, left_of_ne hne]
      rfl
    · exact elsewhere_advance hsets _ fun c hc => (disarms_of_mem_singleton disarms_remove hc).1
  split
  · rename_i hkeep
    refine ⟨hbefore, .inl ?_, ?_, elsewhere_advance hsets _ fun c hc => ?_, hgen⟩
    · rw [standing_advance hsets, standing_left hkeep, hlive hkeep]
    · rw [armed, advance, ← List.cons_append]
      exact handshake_cleared (fun _ hc => absurd hc List.not_mem_nil) l.wheel
    · rcases List.mem_cons.mp hc with rfl | hc
      · rfl
      · rcases List.mem_append.mp hc with hc | hc
        · exact on_lifetimeCalls pass.now c hc
        · obtain rfl := List.mem_singleton.mp hc
          rfl
  · rename_i hclose
    exact hgone (by rw [hclose]; decide)
  · rename_i head hhandoff
    exact hgone (by rw [hhandoff]; exact Fate.noConfusion)

end Loop

end Pylon.Transport
