import Pylon.Transport.LoopMoves

/-!
# The order of what is queued on a connection

As long as no shutdown drain has begun, what is queued on a connection is nothing
while it is in its handshake, then one HTTP response, then frames; a Close is the
last frame, because whoever queues one gives the connection up.

* **`Spare`** — a connection without a session has no pong and no lifetime timer,
  so that no Close is due before the upgrade was answered;
* **`Hushed`** — the drain queues a Close on every connection and keeps the ones
  it could flush. The order survives only if nothing is queued on them afterwards
  (`Quiet`).
-/

namespace Pylon.Transport

open Pylon.Lib Pylon.Redis

/-! ## Timers of a connection without a session -/

/-- Nothing but an idle timer and the handshake deadline. -/
def TimerWheel.Spare (w : TimerWheel) (key : Nat) : Prop :=
  w.lifetime.hget key = none ∧ ∀ t, w.live.hget key = some t → t.kind = .idle

namespace TimerWheel

variable {w : TimerWheel} {key : Nat}

theorem Spare.touch (h : w.Spare key) (nowMs : Nat) : (w.touch key nowMs).Spare key := by
  refine ⟨h.1, fun t ht => ?_⟩
  have hlive : (w.live.hset key ⟨_, .idle⟩).hget key = some t := ht
  rw [Hash.hget_hset_self] at hlive
  cases hlive
  rfl

theorem Spare.touches {read : Prop} {calls : List TimerCall} (h : w.Spare key)
    (hcalls : Touches read key calls) :
    (run TimerWheel.call w calls).Spare key := by
  rcases hcalls with rfl | ⟨-, nowMs, rfl⟩
  · exact h
  · exact h.touch nowMs

theorem Spare.clearLiveness (h : w.Spare key) : (w.clearLiveness key).Spare key := by
  refine ⟨h.1, fun t ht => ?_⟩
  have hlive : (w.live.hdel key).hget key = some t := ht
  rw [Hash.hget_hdel_self] at hlive
  cases hlive

theorem spare_remove (w : TimerWheel) (key : Nat) : (w.remove key).Spare key := by
  refine ⟨Hash.hget_hdel_self .., fun t ht => ?_⟩
  have hlive : (w.live.hdel key).hget key = some t := ht
  rw [Hash.hget_hdel_self] at hlive
  cases hlive

variable {conn : Nat}

theorem tables_call {c : TimerCall} (hc : c.On conn) (hne : key ≠ conn) :
    (w.call c).lifetime.hget key = w.lifetime.hget key ∧
      (w.call c).live.hget key = w.live.hget key := by
  cases c with
  | due => exact hc.elim
  | touch k nowMs | markPingSent k nowMs =>
    obtain rfl : k = conn := hc
    exact ⟨rfl, Hash.hget_hset_ne _ _ hne⟩
  | armLifetime k =>
    obtain rfl : k = conn := hc
    exact ⟨Hash.hget_hset_ne _ _ hne, rfl⟩
  | armHandshake | clearHandshake => exact ⟨rfl, rfl⟩
  | clearLiveness k =>
    obtain rfl : k = conn := hc
    exact ⟨rfl, Hash.hget_hdel_ne _ hne⟩
  | remove k =>
    obtain rfl : k = conn := hc
    exact ⟨Hash.hget_hdel_ne _ hne, Hash.hget_hdel_ne _ hne⟩

theorem tables_calls {calls : List TimerCall} (hcalls : ∀ c ∈ calls, c.On conn) (hne : key ≠ conn) :
    (run TimerWheel.call w calls).lifetime.hget key = w.lifetime.hget key ∧
      (run TimerWheel.call w calls).live.hget key = w.live.hget key := by
  induction calls generalizing w with
  | nil => exact ⟨rfl, rfl⟩
  | cons c _ ih =>
    obtain ⟨hlifetime, hlive⟩ := tables_call (w := w) (hcalls c List.mem_cons_self) hne
    obtain ⟨hlifetime', hlive'⟩ :=
      ih (w := w.call c) fun c' hc' => hcalls c' (List.mem_cons_of_mem c hc')
    exact ⟨hlifetime'.trans hlifetime, hlive'.trans hlive⟩

theorem Spare.calls {calls : List TimerCall} (h : w.Spare key) (hcalls : ∀ c ∈ calls, c.On conn)
    (hne : key ≠ conn) : (run TimerWheel.call w calls).Spare key := by
  obtain ⟨hlifetime, hlive⟩ := tables_calls (w := w) hcalls hne
  refine ⟨hlifetime.trans h.1, fun t ht => h.2 t ?_⟩
  rw [← hlive]
  exact ht

/-- Whatever is due has its timer in a side table. -/
theorem due_table {nowMs : Nat} {due : Timer.Due} (h : due ∈ (w.due nowMs).1) :
    match due with
    | .close4201 key => ∃ t, w.live.hget key = some t ∧ t.kind = .pong
    | .close4202 key => ∃ deadlineMs, w.lifetime.hget key = some deadlineMs
    | .ping _ | .handshakeTimeout _ => True := by
  obtain ⟨p, -, hdue⟩ := List.mem_flatMap.mp h
  obtain ⟨⟨conn, kind⟩, -, hhonour⟩ := List.mem_filterMap.mp hdue
  cases kind with
  | idle =>
    unfold honour at hhonour
    dsimp only at hhonour
    split at hhonour
    · split at hhonour
      · rw [if_pos rfl] at hhonour
        cases hhonour
        trivial
      · cases hhonour
    · cases hhonour
  | pong =>
    unfold honour at hhonour
    dsimp only at hhonour
    split at hhonour
    · rename_i t hget
      split at hhonour
      · rename_i hmatch
        rw [if_neg (by decide)] at hhonour
        cases hhonour
        exact ⟨t, hget, hmatch.2⟩
      · cases hhonour
    · cases hhonour
  | lifetime =>
    unfold honour at hhonour
    dsimp only at hhonour
    split at hhonour
    · rename_i hget
      cases hhonour
      exact ⟨_, hget⟩
    · cases hhonour
  | handshake =>
    unfold honour at hhonour
    dsimp only at hhonour
    split at hhonour
    · cases hhonour
      trivial
    · cases hhonour

end TimerWheel

namespace Loop

/-- A connection without a session, or a vacant key, has no Close coming. -/
def Timed (l : Loop) : Prop :=
  ∀ key, (∀ e, l.worker.conns.hget key = some e → e.session = false) → l.wheel.Spare key

/-- So a Close that is due is due to a session. -/
theorem Timed.legit {l : Loop} (h : l.Timed) {nowMs : Nat} {due : Timer.Due}
    (hdue : due ∈ (l.wheel.due nowMs).1) : l.Legit due := by
  have htable := TimerWheel.due_table hdue
  have hspare (key : Nat) (e : WorkerEntry) (hkey : l.worker.conns.hget key = some e)
      (hsession : e.session ≠ true) : l.wheel.Spare key := by
    refine h key fun e' he' => ?_
    rw [hkey] at he'
    cases he'
    exact Bool.eq_false_iff.mpr hsession
  cases due with
  | ping | handshakeTimeout => trivial
  | close4201 key =>
    obtain ⟨t, ht, hkind⟩ := htable
    intro e hkey
    by_contra hsession
    rw [(hspare key e hkey hsession).2 t ht] at hkind
    cases hkind
  | close4202 key =>
    obtain ⟨deadlineMs, hdeadline⟩ := htable
    intro e hkey
    by_contra hsession
    rw [(hspare key e hkey hsession).1] at hdeadline
    cases hdeadline

variable {cfg : LoopConfig} {read : Nat → Prop} {watched : Loop → Nat → Prop} {l l' : Loop}
  {entry : Option WorkerEntry} {key : Nat} {items : List Item}

theorem Timed.timers_moves (h : l.Timed) (hsane : l.Sane) (hecho : cfg.echo = false)
    (text : Nat → Bytes) (pass : Pass) :
    Moves cfg read watched { l with wheel := (l.wheel.due (nowMs pass.now)).2 }
      (l.timers cfg text pass) := by
  rw [timers_eq hecho]
  exact fire_foldl_moves text pass _ hsane fun _ hmem => h.legit hmem

theorem Move.on {q p : Prop} {entry' : Option WorkerEntry} {calls : List TimerCall}
    (h : Move cfg q p key entry items calls entry') : ∀ c ∈ calls, c.On key := by
  cases h with
  | converse state sends talk touches | wait state sends touches => exact on_touches touches
  | park _ _ _ _ _ _ _ touches => exact on_touches touches
  | establish _ now _ _ _ _ _ _ _ touches =>
    intro c hc
    rcases List.mem_append.mp hc with hc | hc
    · exact on_touches touches c hc
    · rcases List.mem_cons.mp hc with rfl | hc
      · rfl
      · exact on_lifetimeCalls now c hc
  | resume now =>
    intro c hc
    rcases List.mem_cons.mp hc with rfl | hc
    · rfl
    · rcases List.mem_append.mp hc with hc | hc
      · exact on_lifetimeCalls now c hc
      · rw [List.mem_singleton.mp hc]
        rfl
  | ping | forget | excuse => simp [TimerCall.On]
  | leave _ _ _ _ on =>
    intro c hc
    rcases List.mem_append.mp hc with hc | hc
    · exact on c hc
    · rw [List.mem_singleton.mp hc]
      rfl

theorem Timed.does (h : l.Timed) (hdoes : l.Does cfg read watched l') : l'.Timed := by
  obtain ⟨key, items, calls, entry, hmove, hat⟩ := hdoes
  intro k hk
  rw [hat.wheel]
  by_cases hkey : k = key
  · subst hkey
    have hnone := fun e he => hk e (hat.sets.entry.trans he)
    have hstill := h k
    generalize l.worker.conns.hget k = entry₀ at hmove hstill
    cases hmove with
    | converse state sends talk touches | wait state sends touches =>
      refine (hstill ?_).touches touches
      rintro _ ⟨⟩
      exact sends.session.symm.trans (hnone _ rfl)
    | park _ _ session _ _ _ _ touches =>
      refine (hstill ?_).touches touches
      rintro _ ⟨⟩
      exact session
    | establish _ _ _ _ _ session' =>
      exact absurd (session'.symm.trans (hnone _ rfl)) (by decide)
    | resume _ _ _ _ session' =>
      exact absurd (session'.symm.trans (hnone _ rfl)) (by decide)
    | ping _ _ session sends =>
      exact absurd ((sends.session.trans session).symm.trans (hnone _ rfl)) (by decide)
    | forget => exact (hstill hnone).clearLiveness
    | excuse => exact hstill hnone
    | leave =>
      rw [run_append]
      exact TimerWheel.spare_remove _ k
  · refine (h k fun e he => hk e ((hat.sets.others k hkey).trans he)).calls hmove.on hkey

theorem Timed.moves (h : l.Timed) (hmoves : l.Moves cfg read watched l') : l'.Timed := by
  induction hmoves with
  | refl => exact h
  | tail _ hdoes ih => exact ih.does hdoes

theorem Accepted.timed {now : Nat} (hacc : Accepted cfg now key l l') (h : l.Timed) : l'.Timed := by
  intro k hk
  rw [hacc.wheel]
  by_cases hkey : k = key
  · subst hkey
    have hspare : l.wheel.Spare k := h k fun e he => by
      rw [hacc.vacant] at he
      cases he
    unfold acceptCalls
    split
    · exact hspare
    · exact hspare
  · exact (h k fun e he => hk e ((hacc.sets.others k hkey).trans he)).calls
      (on_acceptCalls now) hkey

/-! ## Speaking -/

/-- What has been queued on a connection, by where it is in its protocol. -/
structure Spoken (cfg : LoopConfig) (wire : List Item) (entry : Option WorkerEntry) : Prop where
  order : wireOrder wire = true
  handshaking : ∀ e ∈ entry, e.state = .handshaking → wire = []
  opened : ∀ e ∈ entry, e.state = .opened →
    ∃ response talk, wire = .http response :: talk ∧ talk.all Item.isTalk = true
  emits : ∀ e ∈ entry, (IoConnection.new cfg.tls cfg.highWater cfg.codel).Emits wire e.conn

def Speaks (cfg : LoopConfig) (l : Loop) : Prop :=
  ∀ key, Spoken cfg (l.wire key) (l.worker.conns.hget key)

variable {wire : List Item}

theorem spoken_opened {e : WorkerEntry} {talk : List Item} {response : Bytes}
    (hstate : e.state = .opened) (hwire : wire = .http response :: talk)
    (htalk : talk.all Item.isTalk = true)
    (hemits : (IoConnection.new cfg.tls cfg.highWater cfg.codel).Emits wire e.conn) :
    Spoken cfg wire (some e) where
  order := by
    rw [hwire]
    exact wireFrames_of_talk htalk
  handshaking := by
    rintro _ ⟨⟩ h
    rw [hstate] at h
    cases h
  opened := by
    rintro _ ⟨⟩ -
    exact ⟨response, talk, hwire, htalk⟩
  emits := by
    rintro _ ⟨⟩
    exact hemits

section

variable {e e' : WorkerEntry} {wire items : List Item} (h : Spoken cfg wire (some e))

include h

theorem Spoken.goesOn (hstate : e.state = .opened) (hstate' : e'.state = .opened)
    (htalk : items.all Item.isTalk = true) (hemits : e.conn.Emits items e'.conn) :
    Spoken cfg (wire ++ items) (some e') := by
  obtain ⟨response, before, rfl, hbefore⟩ := h.opened e rfl hstate
  refine spoken_opened hstate' (List.cons_append ..) ?_ ((h.emits e rfl).trans hemits)
  rw [List.all_append, hbefore, htalk]
  rfl

theorem Spoken.answer {response : Bytes} {talk : List Item} (hstate : e.state = .handshaking)
    (hstate' : e'.state = .opened) (htalk : talk.all Item.isTalk = true)
    (hemits : e.conn.Emits (.http response :: talk) e'.conn) :
    Spoken cfg (wire ++ .http response :: talk) (some e') := by
  obtain rfl := h.handshaking e rfl hstate
  exact spoken_opened hstate' rfl htalk ((h.emits e rfl).trans hemits)

theorem Spoken.hush (hsends : e.Sends e' []) : Spoken cfg (wire ++ []) (some e') := by
  rw [List.append_nil]
  refine ⟨h.order, ?_, ?_, ?_⟩
  · rintro _ ⟨⟩ hstate
    exact h.handshaking e rfl (hsends.state.symm.trans hstate)
  · rintro _ ⟨⟩ hstate
    exact h.opened e rfl (hsends.state.symm.trans hstate)
  · rintro _ ⟨⟩
    have hemits := (h.emits e rfl).trans hsends.emits
    rwa [List.append_nil] at hemits

end

theorem spoken_gone (h : wireOrder wire = true) : Spoken cfg wire none := by
  refine ⟨h, ?_, ?_, ?_⟩ <;> rintro _ ⟨⟩

/-- A move says what its connection's state allows. -/
theorem Spoken.move {q p : Prop} {entry' : Option WorkerEntry} {calls : List TimerCall}
    (h : Spoken cfg wire entry) (hmove : Move cfg q p key entry items calls entry') :
    Spoken cfg (wire ++ items) entry' := by
  cases hmove with
  | converse state sends talk | ping nowMs state session sends talk =>
    exact h.goesOn state (sends.state.trans state) talk sends.emits
  | wait _ sends => exact h.hush sends
  | park _ state _ state' _ emits talks =>
    exact h.answer state state' talks emits
  | establish _ _ state _ state' _ _ emits talks =>
    exact h.answer state state' talks emits
  | resume _ state _ state' _ _ emits talks =>
    exact h.goesOn state state' talks emits
  | forget | excuse =>
    rw [List.append_nil]
    exact h
  | leave _ vacant handshaking opened =>
    refine spoken_gone ?_
    cases entry with
    | none =>
      rw [vacant rfl, List.append_nil]
      exact h.order
    | some e =>
      cases hstate : e.state with
      | handshaking =>
        rw [h.handshaking e rfl hstate]
        exact handshaking e rfl hstate
      | opened =>
        obtain ⟨response, talk, rfl, htalk⟩ := h.opened e rfl hstate
        show wireFrames (talk ++ items) = true
        rw [wireFrames_append htalk]
        exact opened e rfl hstate

theorem Speaks.does (h : Speaks cfg l) (hdoes : l.Does cfg read watched l') : Speaks cfg l' := by
  obtain ⟨key, items, calls, entry, hmove, hat⟩ := hdoes
  intro k
  rw [hat.wire]
  by_cases hkey : k = key
  · subst hkey
    rw [Function.update_self, hat.sets.entry]
    exact (h k).move hmove
  · rw [Function.update_of_ne hkey, hat.sets.others k hkey]
    exact h k

/-! ## Before a drain -/

/-- No drain has begun. -/
structure Talking (cfg : LoopConfig) (l : Loop) : Prop where
  drainStarted : l.worker.drainStarted = false
  sane : l.Sane
  timed : l.Timed
  speaks : Speaks cfg l

theorem Talking.moves (h : Talking cfg l) (hmoves : l.Moves cfg read watched l') :
    Talking cfg l' := by
  refine ⟨?_, h.sane.moves hmoves, h.timed.moves hmoves, ?_⟩
  · induction hmoves with
    | refl => exact h.drainStarted
    | tail _ hdoes ih =>
      obtain ⟨key, items, calls, entry, -, hat⟩ := hdoes
      exact hat.sets.drainStarted.trans ih
  · induction hmoves with
    | refl => exact h.speaks
    | tail _ hdoes ih => exact ih.does hdoes

theorem Talking.accept (h : Talking cfg l) (now key : Nat) :
    Talking cfg (l.accept cfg now key) := by
  rcases accept_cases cfg now l key with hsame | hacc
  · rw [hsame]
    exact h
  refine ⟨hacc.sets.drainStarted.trans h.drainStarted, hacc.sane h.sane, hacc.timed h.timed, ?_⟩
  intro k
  rw [hacc.wire]
  by_cases hkey : k = key
  · subst hkey
    rw [Function.update_self, hacc.sets.entry]
    refine ⟨rfl, fun _ _ _ => rfl, ?_, ?_⟩
    · rintro _ ⟨⟩ hstate
      cases hstate
    · rintro _ ⟨⟩
      exact .refl
  · rw [Function.update_of_ne hkey, hacc.sets.others k hkey]
    exact h.speaks k

theorem Talking.acceptAll (h : Talking cfg l) (now : Nat) (keys : List Nat) :
    Talking cfg (keys.foldl (Loop.accept cfg now) l) := by
  induction keys generalizing l with
  | nil => exact h
  | cons key _ ih => exact ih (h.accept now key)

theorem Talking.timers (h : Talking cfg l) (hecho : cfg.echo = false) (text : Nat → Bytes)
    (pass : Pass) : Talking cfg (l.timers cfg text pass) := by
  -- reading what is due leaves the side tables as they are
  have hdue : Talking cfg { l with wheel := (l.wheel.due (nowMs pass.now)).2 } :=
    ⟨h.drainStarted, h.sane, h.timed, h.speaks⟩
  have hmoves : Moves cfg (fun _ => True) (fun _ _ => True) _ _ :=
    h.timed.timers_moves h.sane hecho text pass
  exact hdue.moves hmoves

/-! ## During a drain -/

variable {started : Bool}

/-- Every connection is open and has its place in the order. -/
structure Hushed (cfg : LoopConfig) (started : Bool) (l : Loop) : Prop where
  drainStarted : l.worker.drainStarted = started
  order : ∀ key, wireOrder (l.wire key) = true
  opened : ∀ key e, l.worker.conns.hget key = some e → e.state = .opened
  emits : ∀ key e, l.worker.conns.hget key = some e →
    (IoConnection.new cfg.tls cfg.highWater cfg.codel).Emits (l.wire key) e.conn

theorem Hushed.at (h : Hushed cfg started l) {calls : List TimerCall}
    (hat : l.At l' key items calls entry) (horder : wireOrder (l.wire key ++ items) = true)
    (hentry : ∀ e' ∈ entry, ∃ e, l.worker.conns.hget key = some e ∧ e.Sends e' items) :
    Hushed cfg started l' where
  drainStarted := hat.sets.drainStarted.trans h.drainStarted
  order := by
    intro k
    rw [hat.wire]
    by_cases hkey : k = key
    · subst hkey
      rw [Function.update_self]
      exact horder
    · rw [Function.update_of_ne hkey]
      exact h.order k
  opened := by
    intro k e' hk
    by_cases hkey : k = key
    · subst hkey
      obtain ⟨e, he, hsends⟩ := hentry e' (hat.sets.entry.symm.trans hk)
      exact hsends.state.trans (h.opened k e he)
    · exact h.opened k e' ((hat.sets.others k hkey).symm.trans hk)
  emits := by
    intro k e' hk
    rw [hat.wire]
    by_cases hkey : k = key
    · subst hkey
      obtain ⟨e, he, hsends⟩ := hentry e' (hat.sets.entry.symm.trans hk)
      rw [Function.update_self]
      exact (h.emits k e he).trans hsends.emits
    · rw [Function.update_of_ne hkey]
      exact h.emits k e' ((hat.sets.others k hkey).symm.trans hk)

theorem Hushed.silent (h : Hushed cfg started l) {calls : List TimerCall}
    (hat : l.At l' key [] calls entry)
    (hentry : ∀ e' ∈ entry, ∃ e, l.worker.conns.hget key = some e ∧ e.Sends e' []) :
    Hushed cfg started l' := by
  refine h.at hat ?_ hentry
  rw [List.append_nil]
  exact h.order key

theorem Hushed.remove (h : Hushed cfg started l) (key : Nat) :
    Hushed cfg started (l.remove key) := by
  refine h.silent (advance_at (l.worker.sets_release key) [] [.remove key]) ?_
  rintro _ ⟨⟩

theorem Hushed.removeAll (h : Hushed cfg started l) (keys : List Nat) :
    Hushed cfg started (keys.foldl Loop.remove l) := by
  induction keys generalizing l with
  | nil => exact h
  | cons key _ ih => exact ih (h.remove key)

theorem Hushed.flushTouched {s : Loop × List Nat} (h : Hushed cfg started s.1) (pass : Pass)
    (token : Nat) :
    Hushed cfg started (flushTouched pass s token).1 := by
  unfold Loop.flushTouched Worker.flushTouched
  cases hkey : s.1.worker.conns.hget token with
  | none =>
    show Hushed cfg started (s.1.advance s.1.worker token [] [])
    rw [advance_nil]
    exact h
  | some e =>
    have hput := s.1.worker.sets_put token (e.flushAndArm (pass.site token) pass.now)
    refine h.silent (advance_at (hput.trans (Worker.sets_foldDelta hput.entry)) [] []) ?_
    rintro _ ⟨⟩
    exact ⟨e, hkey, sends_left (WorkerEntry.sends_flushAndArm e _ _)⟩

theorem Hushed.writable (h : Hushed cfg started l) (key : Nat) (input : Input) (now : Nat) :
    Hushed cfg started (l.writable cfg key input now) := by
  unfold Loop.writable
  cases hkey : l.worker.conns.hget key with
  | none => exact h
  | some e =>
    have hstate := h.opened key e hkey
    have hitems : e.writableItems cfg.toWorkerConfig input = [] := by
      rw [WorkerEntry.writableItems, hstate]
    have hflush : e.handleWritable cfg.toWorkerConfig l.worker.nextGen input now =
        e.flushAndArm input.site now := by
      rw [WorkerEntry.handleWritable, hstate]
    dsimp only
    rw [hitems]
    refine h.silent (advance_at (Worker.sets_writable cfg.toWorkerConfig hkey input now) [] _) ?_
    rw [hflush]
    exact fun e' he' => ⟨e, hkey, sends_of_left (WorkerEntry.sends_flushAndArm e _ _) he'⟩

/-- The goodbyes: every connection gets its Close once. -/
theorem Hushed.goodbyes (text : Nat → Bytes) (pass : Pass) (keys : List Nat) (hkeys : keys.Nodup)
    (h : Hushed cfg started l)
    (hopen : ∀ key ∈ keys, ∀ e, l.worker.conns.hget key = some e →
      ∃ response talk, l.wire key = .http response :: talk ∧ talk.all Item.isTalk = true) :
    Hushed cfg started (keys.foldl (drainCloseConnection text pass) l) := by
  induction keys generalizing l with
  | nil => exact h
  | cons key keys ih =>
    obtain ⟨hnot, hnodup⟩ := List.nodup_cons.mp hkeys
    rw [List.foldl_cons]
    rcases drainCloseConnection_cases text pass l key with hsame | ⟨e, hkey, hcases⟩
    · rw [hsame]
      exact ih hnodup h fun k hk => hopen k (List.mem_cons_of_mem key hk)
    · obtain ⟨response, talk, hwire, htalk⟩ := hopen key List.mem_cons_self e hkey
      have horder : wireOrder (l.wire key ++ goodbyeItems (text key)) = true := by
        rw [hwire]
        show wireFrames (talk ++ _) = true
        rw [wireFrames_append htalk]
        rfl
      -- the other connections and their records are as before
      have hrest {calls : List TimerCall} {entry : Option WorkerEntry}
          (hat : l.At (drainCloseConnection text pass l key) key (goodbyeItems (text key)) calls
            entry) :
          ∀ k ∈ keys, ∀ e, (drainCloseConnection text pass l key).worker.conns.hget k = some e →
            ∃ response talk, (drainCloseConnection text pass l key).wire k =
              .http response :: talk ∧
              talk.all Item.isTalk = true := by
        intro k hk e he
        have hne : k ≠ key := fun heq => hnot (heq ▸ hk)
        rw [hat.wire, Function.update_of_ne hne]
        exact hopen k (List.mem_cons_of_mem key hk) e ((hat.sets.others k hne).symm.trans he)
      rcases hcases with ⟨e', hsends, hat⟩ | hat
      · refine ih hnodup (h.at hat horder ?_) (hrest hat)
        rintro _ ⟨⟩
        exact ⟨e, hkey, hsends⟩
      · refine ih hnodup (h.at hat horder ?_) (hrest hat)
        rintro _ ⟨⟩

/-- A drain that begins when every upgrade has been answered. -/
theorem Talking.startDrain (h : Talking cfg l) (text : Nat → Bytes) (pass : Pass)
    (hopen : ∀ key e, l.worker.conns.hget key = some e → e.state = .opened) :
    Hushed cfg true (l.startDrain text pass) := by
  have hhushed : Hushed cfg false l :=
    ⟨h.drainStarted, fun key => (h.speaks key).order, hopen, fun key => (h.speaks key).emits⟩
  have hall := hhushed.goodbyes text pass l.worker.keys (Finset.sort_nodup ..)
    fun key _ e he => (h.speaks key).opened e he (hopen key e he)
  exact ⟨rfl, hall.order, hall.opened, hall.emits⟩

theorem Hushed.stop (h : Hushed cfg started l) : Hushed cfg started l.stop := by
  have hall := h.removeAll l.worker.keys
  exact ⟨hall.drainStarted, hall.order, hall.opened, hall.emits⟩

/-! ## Every run -/

/-- A drain has begun and the worker has not stopped. -/
def Draining (l : Loop) : Prop := l.worker.drainStarted = true ∧ l.worker.stopped = false

/-- A drain begins only when every upgrade has been answered, and from then on the
steps bring nothing in: no bytes, no broadcast, no event, no lookup, no timer. -/
def Quiet (l : Loop) : LoopAct → Prop
  | .shutdown _ _ _ =>
    l.worker.drainStarted = false →
      ∀ key e, l.worker.conns.hget key = some e → e.state = .opened
  | .accept _ _ => True
  | .event _ ready _ => l.Draining → ready.hangup = true ∨ ready.readable = none
  | .broadcasts _ msgs _ => l.Draining → ∀ msg ∈ msgs, msg.subs = []
  | .dirty keys mail pass => l.Draining → ∀ key ∈ pass.walk keys.dedup, mail key = []
  | .resolved token gen _ _ =>
    l.Draining → ∀ e, l.worker.conns.hget token = some e → e.pendingEstablish ≠ some gen
  | .timers _ pass => l.Draining → (l.wheel.due (nowMs pass.now)).1 = []

/-- Before a drain everything may be said, during it nothing. -/
def Orderly (cfg : LoopConfig) (l : Loop) : Prop := Talking cfg l ∨ Hushed cfg true l

theorem Hushed.orStop (h : Hushed cfg started l) (expired : Bool) :
    Hushed cfg started (if l.worker.outboundBytes = 0 ∨ expired then l.stop else l) := by
  split
  · exact h.stop
  · exact h

/-- The first drain turns talking into hushed. -/
theorem Talking.step (h : Talking cfg l) (hecho : cfg.echo = false) (a : LoopAct)
    (hquiet : l.Quiet a) : Orderly cfg (loopStep cfg l a) := by
  have hmoves (l' : Loop) (hm : l.Moves cfg (fun _ => True) (fun _ _ => True) l') :
      Orderly cfg l' :=
    .inl (h.moves hm)
  refine step_cases hecho h.sane a
    (fun _ _ _ _ => ⟨fun _ => trivial, fun _ _ _ _ _ _ _ => trivial⟩) (.inl h) hmoves ?_
    (fun keys now => .inl (h.acceptAll now keys)) fun text pass => .inl (h.timers hecho text pass)
  rintro text expired pass rfl
  refine .inr ?_
  unfold Loop.shutdown
  dsimp only
  rw [h.drainStarted, if_neg Bool.false_ne_true]
  exact (h.startDrain text pass (hquiet h.drainStarted)).orStop expired

theorem Hushed.drainDirty (h : Hushed cfg started l) {mail : Nat → List Mail} (pass : Pass)
    (hmail : mail key = []) : Hushed cfg started (drainDirty mail pass l key) := by
  unfold Loop.drainDirty
  cases hopen : l.worker.openConn key with
  | none => exact h
  | some e =>
    obtain ⟨hkey, -, -⟩ := Worker.session_of_openConn hopen
    have hdrain (site : FlushSite) (now : Nat) : e.drainSession [] site now = .keep e := by
      rw [WorkerEntry.drainSession, if_pos (.inr rfl)]
    have hitems : e.sessionItems [] = [] := by
      rw [WorkerEntry.sessionItems]
      split <;> rfl
    have hsets : l.worker.Sets (l.worker.drainDirty mail pass key) key
        (some { e with conn := e.conn.takeDeltas }) := by
      rw [Worker.drainDirty, hopen]
      dsimp only
      rw [hmail, hdrain]
      exact l.worker.sets_settle key (.keep e) .keep
    dsimp only
    rw [hmail, hitems]
    refine h.silent (advance_at hsets [] _) ?_
    rintro _ ⟨⟩
    exact ⟨e, hkey, WorkerEntry.sends_takeDeltas e⟩

theorem Hushed.drainDirtyAll (h : Hushed cfg started l) {mail : Nat → List Mail} (pass : Pass)
    {keys : List Nat} (hmail : ∀ key ∈ keys, mail key = []) :
    Hushed cfg started (keys.foldl (Loop.drainDirty mail pass) l) := by
  induction keys generalizing l with
  | nil => exact h
  | cons key _ ih =>
    exact ih (h.drainDirty pass (hmail key List.mem_cons_self))
      fun k hk => hmail k (List.mem_cons_of_mem key hk)

theorem inbox_of_no_subs (budget now : Nat) {msgs : List BroadcastMsg}
    (hsubs : ∀ msg ∈ msgs, msg.subs = []) (s : Loop × List Nat) :
    msgs.foldl (fun s msg => msg.subs.foldl (deliver budget now msg) s) s = s := by
  induction msgs with
  | nil => rfl
  | cons msg _ ih =>
    rw [List.foldl_cons, hsubs msg List.mem_cons_self]
    exact ih fun m hm => hsubs m (List.mem_cons_of_mem msg hm)

theorem Hushed.flushAll (pass : Pass) (keys : List Nat) {s : Loop × List Nat}
    (h : Hushed cfg started s.1) :
    Hushed cfg started (keys.foldl (Loop.flushTouched pass) s).1 := by
  induction keys generalizing s with
  | nil => exact h
  | cons key _ ih => exact ih (h.flushTouched pass key)

theorem Hushed.step (h : Hushed cfg true l) (a : LoopAct) (hquiet : l.Quiet a) :
    Hushed cfg true (loopStep cfg l a) := by
  unfold loopStep
  split
  · exact h
  rename_i hstop
  have hdrain : l.Draining := ⟨h.drainStarted, Bool.eq_false_iff.mpr hstop⟩
  cases a with
  | shutdown _ expired =>
    dsimp only
    unfold Loop.shutdown
    dsimp only
    rw [if_pos h.drainStarted]
    exact h.orStop expired
  | accept =>
    dsimp only
    rw [if_pos h.drainStarted]
    exact h
  | event key ready now =>
    show Hushed cfg true (l.handleEvent cfg key ready now)
    unfold handleEvent
    split
    · exact h
    · split
      · exact h.remove key
      · rename_i hhangup
        have hsilent : ready.readable = none := (hquiet hdrain).resolve_left hhangup
        rw [readableEvent, hsilent]
        cases ready.writable with
        | none => exact h
        | some input => exact h.writable key input now
  | broadcasts budget msgs pass =>
    show Hushed cfg true (l.drainBroadcasts budget msgs pass)
    unfold drainBroadcasts
    rw [inbox_of_no_subs budget pass.now (hquiet hdrain)]
    exact Hushed.removeAll (Hushed.flushAll pass (pass.walk []) (s := (l, [])) h) _
  | dirty _ _ pass =>
    exact h.drainDirtyAll pass (hquiet hdrain)
  | resolved token gen outcome pass =>
    show Hushed cfg true (l.drainResolved cfg token gen outcome pass)
    unfold drainResolved
    cases hkey : l.worker.conns.hget token with
    | none => exact h
    | some e =>
      dsimp only
      rw [if_pos (hquiet hdrain e hkey)]
      exact h
  | timers text pass =>
    show Hushed cfg true (l.timers cfg text pass)
    unfold Loop.timers
    split
    · exact h
    · dsimp only
      rw [hquiet hdrain]
      exact ⟨h.drainStarted, h.order, h.opened, h.emits⟩

theorem Orderly.step (hecho : cfg.echo = false) (h : Orderly cfg l) (a : LoopAct)
    (hquiet : l.Quiet a) : Orderly cfg (loopStep cfg l a) := by
  rcases h with h | h
  · exact h.step hecho a hquiet
  · exact .inr (h.step a hquiet)

theorem Talking.start (cfg : LoopConfig) (activityTimeoutSecs pongTimeoutSecs : Nat) :
    Talking cfg (.start activityTimeoutSecs pongTimeoutSecs) where
  drainStarted := rfl
  sane := by
    intro key e h
    cases h
  timed := by
    intro key _
    refine ⟨rfl, ?_⟩
    intro t ht
    cases ht
  speaks := fun key => spoken_gone rfl

end Loop

/-- In every run of a dispatch-mode loop whose drain finds every upgrade answered
and stays quiet, what is queued on a connection is in order: one HTTP response,
then frames, a Close last. -/
theorem wire_in_order (cfg : LoopConfig) (hecho : cfg.echo = false)
    (activityTimeoutSecs pongTimeoutSecs : Nat) (acts : List LoopAct)
    (hquiet : Along (loopStep cfg) Loop.Quiet (.start activityTimeoutSecs pongTimeoutSecs) acts)
    (key : Nat) :
    let l := run (loopStep cfg) (.start activityTimeoutSecs pongTimeoutSecs) acts
    wireOrder (l.wire key) = true ∧
      ∀ e, l.worker.conns.hget key = some e →
        (IoConnection.new cfg.tls cfg.highWater cfg.codel).Emits (l.wire key) e.conn := by
  have h := hquiet.invariant (fun _ a (h : Loop.Orderly cfg _) hq => h.step hecho a hq)
    (.inl (.start cfg _ _))
  rcases h with h | h
  · exact ⟨(h.speaks key).order, (h.speaks key).emits⟩
  · exact ⟨h.order key, h.emits key⟩

/-- Whether every upgrade has been answered can be read off the slab. -/
theorem Loop.opened_of_keys {l : Loop}
    (h : ∀ key ∈ l.worker.conns.hkeys,
      (l.worker.conns.hget key).all (fun e => decide (e.state = .opened)) = true) :
    ∀ key e, l.worker.conns.hget key = some e → e.state = .opened := by
  intro key e hkey
  have hall := h key (Hash.mem_hkeys_of_hget hkey)
  rw [hkey] at hall
  exact of_decide_eq_true hall

/-- A drain that finds the upgrade answered: the response, the first event, the
error and the Close. -/
theorem wire_in_order_drained :
    let upgrade : Input := { incoming := { bytes := [71] }, upgrade := .establish [2] }
    let acts : List LoopAct :=
      [.accept [0] 0, .event 0 { readable := some upgrade } 0,
        .shutdown (fun _ => [1]) false { now := 1 }, .event 0 { writable := some {} } 2]
    ((run (loopStep (.sample false)) (.start 120 30) acts).wire 0).length = 4 ∧
      wireOrder ((run (loopStep (.sample false)) (.start 120 30) acts).wire 0) = true := by
  intro upgrade acts
  have hquiet : Along (loopStep (.sample false)) Loop.Quiet (.start 120 30) acts := by
    refine ⟨trivial, fun hdrain => ?_, fun _ => Loop.opened_of_keys ?_, fun _ => .inr rfl, trivial⟩
    · exact absurd hdrain.1 (by decide +kernel)
    · decide +kernel
  exact ⟨by decide +kernel, (wire_in_order (.sample false) rfl 120 30 acts hquiet 0).1⟩

/-- A drain that begins during a handshake: the peer is sent the error and a Close
before any HTTP response, and the response to its upgrade after them. -/
theorem wire_response_after_close :
    let upgrade : Input := { incoming := { bytes := [71] }, upgrade := .establish [2] }
    let l := run (loopStep (.sample false)) (.start 120 30)
      [.accept [0] 0, .shutdown (fun _ => [1]) false { now := 1 },
        .event 0 { readable := some upgrade } 2]
    l.wire 0 = [.event [1], .closing 4200 "Server is shutting down; please reconnect",
        .http [72, 84, 84, 80], .event [2]] ∧
      wireOrder (l.wire 0) = false := by
  decide +kernel

end Pylon.Transport
