import Pylon.Transport.WireOrder

/-!
# Every connection is under a deadline

A connection without a session waits for its handshake deadline, one with a session
for its liveness deadline; no peer can stay by being silent.

Moves keep that (`Deadlined`), with one exception: the writable path establishes a
session without a `touch`, so it must find the liveness deadline armed (`Monitored`).
A connection whose peer sends nothing is then gone after two readings of the timers
that find its deadline passed.
-/

namespace Pylon.Transport

open Pylon.Lib Pylon.Redis

/-! ## Timers of one connection -/

namespace Timers

variable {activityTimeoutMs pongTimeoutMs : Nat} {n : Timers} {key k : Nat}

theorem set_ne (hne : k ≠ key) (family : Timer.Family) (state : Option Timer.State) :
    n.set key family state k = n k := by
  funext family'
  unfold set
  rw [if_neg fun h => hne h.1]

theorem set_none {family : Timer.Family} (h : n key family = none) (family' : Timer.Family) :
    n.set key family' none key family = none := by
  unfold set
  split
  · rfl
  · exact h

theorem call_ne {c : TimerCall} (hc : c.On key) (hne : k ≠ key) :
    n.call activityTimeoutMs pongTimeoutMs c k = n k := by
  cases c with
  | due => exact hc.elim
  | touch conn nowMs | markPingSent conn nowMs | armLifetime conn nowMs
  | armHandshake conn nowMs | clearHandshake conn | clearLiveness conn =>
    obtain rfl : conn = key := hc
    exact set_ne hne _ _
  | remove conn =>
    obtain rfl : conn = key := hc
    show ((n.set conn _ none).set conn _ none).set conn _ none k = n k
    rw [set_ne hne, set_ne hne, set_ne hne]

theorem calls_ne {calls : List TimerCall} (hcalls : ∀ c ∈ calls, c.On key) (hne : k ≠ key) :
    run (Timers.call activityTimeoutMs pongTimeoutMs) n calls k = n k := by
  induction calls generalizing n with
  | nil => rfl
  | cons c _ ih =>
    rw [run_cons, ih fun c' hc' => hcalls c' (List.mem_cons_of_mem c hc')]
    exact call_ne (hcalls c List.mem_cons_self) hne

end Timers

variable {w : TimerWheel} {n : Timers} {key : Nat}

theorem TimerWheel.Tracks.callsOn (h : w.Tracks n) {calls : List TimerCall}
    (hcalls : ∀ c ∈ calls, c.On key) :
    (run TimerWheel.call w calls).Tracks
      (run (Timers.call w.activityTimeoutMs w.pongTimeoutMs) n calls) :=
  h.calls calls fun _ hmem => (hcalls _ hmem).elim

/-- An unfired deadline that has passed is among what is due. -/
theorem TimerWheel.Tracks.mem_due (h : w.Tracks n) {now : Nat} {family : Timer.Family}
    {s : Timer.State} (hs : n key family = some s) (hunfired : s.fired = false)
    (hpast : s.timer.deadlineMs ≤ nowMs now) :
    (⟨key, s.timer.kind⟩ : Timer.Slot).due ∈ (w.due (nowMs now)).1 := by
  obtain ⟨expired, hdues, -, -, hmem⟩ := h.answers (nowMs_lt now)
  rw [hdues]
  refine List.mem_map.mpr ⟨(s.timer.deadlineMs, ⟨key, s.timer.kind⟩), ?_, rfl⟩
  refine (hmem _ _).mpr ⟨?_, hpast⟩
  obtain ⟨⟨deadlineMs, kind⟩, fired⟩ := s
  obtain rfl : fired = false := hunfired
  have hfamily : kind.family = family := h.family key family _ hs
  show n key kind.family = _
  rw [hfamily, hs]

/-- A connection's deadlines; `owed` are the actions of fired ones yet to come. -/
structure Deadlined (cfg : LoopConfig) (owed : List Timer.Due) (acceptedMs key : Nat)
    (timers : Timer.Family → Option Timer.State) (entry : Option WorkerEntry) : Prop where
  vacant : entry = none → ∀ family, timers family = none
  waiting : ∀ e ∈ entry, e.session = false → ∃ fired,
    timers .handshake =
        some ⟨⟨saturatingAdd acceptedMs cfg.handshakeTimeoutMs, .handshake⟩, fired⟩ ∧
      (fired = true → .handshakeTimeout key ∈ owed)
  live : ∀ e ∈ entry, e.session = true →
    timers .handshake = none ∧ ∃ s, timers .liveness = some s ∧
      (s.fired = true → (⟨key, s.timer.kind⟩ : Timer.Slot).due ∈ owed)

namespace Deadlined

variable {cfg : LoopConfig} {owed : List Timer.Due} {acceptedMs key : Nat}
  {timers timers' : Timer.Family → Option Timer.State} {entry : Option WorkerEntry}
  {e e' : WorkerEntry}

theorem vacated (h : ∀ family, timers family = none) :
    Deadlined cfg owed acceptedMs key timers none :=
  ⟨fun _ => h, by rintro _ ⟨⟩, by rintro _ ⟨⟩⟩

theorem fresh {t : Timer} (hsession : e.session = true) (hhandshake : timers .handshake = none)
    (hlive : timers .liveness = some ⟨t, false⟩) :
    Deadlined cfg owed acceptedMs key timers (some e) where
  vacant := nofun
  waiting := by
    rintro _ ⟨⟩ h
    rw [hsession] at h
    cases h
  live := by
    rintro _ ⟨⟩ -
    exact ⟨hhandshake, _, hlive, nofun⟩

/-- The entry keeps its session, or its lack of one, and the deadlines it is under. -/
theorem kept (h : Deadlined cfg owed acceptedMs key timers (some e))
    (hsession : e'.session = e.session) (hhandshake : timers' .handshake = timers .handshake)
    (hlive : timers' .liveness = timers .liveness ∨ ∃ t, timers' .liveness = some ⟨t, false⟩) :
    Deadlined cfg owed acceptedMs key timers' (some e') where
  vacant := nofun
  waiting := by
    rintro _ ⟨⟩ hfalse
    rw [hhandshake]
    exact h.waiting e rfl (hsession.symm.trans hfalse)
  live := by
    rintro _ ⟨⟩ htrue
    obtain ⟨hnone, s, hs, howed⟩ := h.live e rfl (hsession.symm.trans htrue)
    refine ⟨hhandshake.trans hnone, ?_⟩
    rcases hlive with hsame | ⟨t, ht⟩
    · exact ⟨s, hsame.trans hs, howed⟩
    · exact ⟨_, ht, nofun⟩

end Deadlined

namespace Timers

variable {activityTimeoutMs pongTimeoutMs : Nat} {n : Timers} {key : Nat}

theorem touches_handshake {read : Prop} {calls : List TimerCall} (h : Touches read key calls) :
    run (Timers.call activityTimeoutMs pongTimeoutMs) n calls key .handshake =
      n key .handshake := by
  rcases h with rfl | ⟨-, nowMs, rfl⟩
  · rfl
  · simp [Timers.call, arm, set, Timer.Kind.family]

theorem touches_liveness {read : Prop} {calls : List TimerCall} (h : Touches read key calls) :
    run (Timers.call activityTimeoutMs pongTimeoutMs) n calls key .liveness = n key .liveness ∧
        calls = [] ∨
      ∃ t, run (Timers.call activityTimeoutMs pongTimeoutMs) n calls key .liveness =
        some ⟨t, false⟩ := by
  rcases h with rfl | ⟨-, nowMs, rfl⟩
  · exact .inl ⟨rfl, rfl⟩
  · exact .inr ⟨_, by simp [Timers.call, arm, set, Timer.Kind.family]; rfl⟩

theorem lifetimeCalls_of_ne {cfg : LoopConfig} (now : Nat) {family : Timer.Family}
    (hne : family ≠ .lifetime) :
    run (Timers.call activityTimeoutMs pongTimeoutMs) n
      (Loop.lifetimeCalls cfg key now) key family =
      n key family := by
  unfold Loop.lifetimeCalls
  split
  · simp [Timers.call, arm, set, Timer.Kind.family, hne]
  · rfl

theorem remove_self (family : Timer.Family) :
    n.call activityTimeoutMs pongTimeoutMs (.remove key) key family = none := by
  cases family <;> simp [Timers.call, set]

end Timers

/-- A move keeps a connection under its deadlines, if one established without a
`touch` was under a liveness deadline before. -/
theorem Deadlined.move {cfg : LoopConfig} {owed : List Timer.Due} {acceptedMs : Nat} {q p : Prop}
    {entry entry' : Option WorkerEntry} {items : List Item} {calls : List TimerCall}
    {activityTimeoutMs pongTimeoutMs : Nat} (h : Deadlined cfg owed acceptedMs key (n key) entry)
    (hmove : Loop.Move cfg q p key entry items calls entry')
    (hp : p → ∃ t, n key .liveness = some ⟨t, false⟩) :
    Deadlined cfg owed acceptedMs key
      (run (Timers.call activityTimeoutMs pongTimeoutMs) n calls key) entry' := by
  cases hmove with
  | converse state sends talk touches | wait state sends touches =>
    exact h.kept sends.session (Timers.touches_handshake touches)
      ((Timers.touches_liveness touches).imp_left And.left)
  | park _ _ session _ session' _ _ touches =>
    exact h.kept (session'.trans session.symm) (Timers.touches_handshake touches)
      ((Timers.touches_liveness touches).imp_left And.left)
  | @establish _ _ _ calls response now state session state' session' pending' emits talks touches
      untouched =>
    obtain ⟨t, ht⟩ : ∃ t, run (Timers.call activityTimeoutMs pongTimeoutMs) n calls key .liveness =
        some ⟨t, false⟩ := by
      rcases Timers.touches_liveness touches with ⟨hsame, hcalls⟩ | hfresh
      · rw [hsame]
        exact hp (untouched hcalls)
      · exact hfresh
    rw [run_append, run_cons]
    refine .fresh session' ?_ (t := t) ?_
    · rw [Timers.lifetimeCalls_of_ne now (by decide)]
      simp [Timers.call, Timers.set]
    · rw [Timers.lifetimeCalls_of_ne now (by decide), ← ht]
      simp [Timers.call, Timers.set]
  | resume now _ _ _ session' =>
    rw [run_cons, run_append]
    refine .fresh session' (t := ⟨saturatingAdd (nowMs now) activityTimeoutMs, .idle⟩) ?_ ?_
    · simp [Timers.call, Timers.set]
    · show Timers.set _ key .handshake none key .liveness = _
      rw [Timers.set, if_neg fun h => (by cases h.2), Timers.lifetimeCalls_of_ne now (by decide)]
      simp [Timers.call, Timers.arm, Timers.set, Timer.Kind.family]
  | ping nowMs _ _ sends =>
    refine h.kept sends.session ?_ (.inr ⟨⟨saturatingAdd nowMs pongTimeoutMs, .pong⟩, ?_⟩)
    · simp [Timers.call, Timers.arm, Timers.set, Timer.Kind.family]
    · simp [Timers.call, Timers.arm, Timers.set, Timer.Kind.family]
  | forget session =>
    cases entry with
    | none => exact .vacated fun family => Timers.set_none (h.vacant rfl family) _
    | some e =>
      refine ⟨fun h => (by cases h), ?_, ?_⟩
      · rintro _ ⟨⟩ hfalse
        have hsame : run (Timers.call activityTimeoutMs pongTimeoutMs) n [.clearLiveness key] key
            .handshake = n key .handshake := by simp [Timers.call, Timers.set]
        rw [hsame]
        exact h.waiting e rfl hfalse
      · rintro _ ⟨⟩ htrue
        rw [session e rfl] at htrue
        cases htrue
  | excuse session =>
    cases entry with
    | none => exact .vacated fun family => Timers.set_none (h.vacant rfl family) _
    | some e =>
      refine h.kept rfl ?_ (.inl ?_)
      · rw [(h.live e rfl (session e rfl)).1]
        simp [Timers.call, Timers.set]
      · simp [Timers.call, Timers.set]
  | leave =>
    rw [run_append, run_cons, run_nil]
    exact .vacated fun family => Timers.remove_self family

/-! ## The loop -/

namespace Loop

/-- The wheel keeps naive timers in which every connection is under its deadline. -/
def Deadlines (cfg : LoopConfig) (owed : List Timer.Due) (l : Loop) : Prop :=
  ∃ n : Timers, l.wheel.Tracks n ∧ ∀ key,
    Deadlined cfg owed (l.acceptedMs key) key (n key) (l.worker.conns.hget key)

/-- The connection's liveness deadline is armed and has not fired. -/
def Awaits (l : Loop) (key : Nat) : Prop :=
  ∃ t, l.wheel.live.hget key = some t ∧ l.wheel.timeline.Holds t.deadlineMs ⟨key, t.kind⟩

variable {cfg : LoopConfig} {read : Nat → Prop} {owed : List Timer.Due} {l l' : Loop}

theorem Awaits.armed {key : Nat} {n : Timers} (h : l.Awaits key) (htracks : l.wheel.Tracks n) :
    ∃ t, n key .liveness = some ⟨t, false⟩ := by
  obtain ⟨t, hlive, hholds⟩ := h
  have hpending := (htracks.holds _ _).mp hholds
  have htable : l.wheel.table .liveness key = some t := hlive
  rw [htracks.table] at htable
  obtain ⟨s, hs, rfl⟩ := Option.map_eq_some_iff.mp htable
  have hfamily := htracks.family key .liveness s hs
  unfold Timers.Pending at hpending
  rw [hfamily] at hpending
  exact ⟨_, hpending⟩

theorem Deadlines.does (h : Deadlines cfg owed l) (hdoes : l.Does cfg read Awaits l') :
    Deadlines cfg owed l' := by
  obtain ⟨n, htracks, hall⟩ := h
  obtain ⟨key, items, calls, entry, hmove, hat⟩ := hdoes
  have htracks' := htracks.callsOn hmove.on
  rw [← hat.wheel] at htracks'
  refine ⟨_, htracks', fun k => ?_⟩
  rw [hat.acceptedMs]
  by_cases hkey : k = key
  · subst hkey
    rw [hat.sets.entry]
    exact (hall k).move hmove fun hwatched => hwatched.armed htracks
  · rw [Timers.calls_ne hmove.on hkey, hat.sets.others k hkey]
    exact hall k

theorem Deadlines.moves (h : Deadlines cfg owed l) (hmoves : l.Moves cfg read Awaits l') :
    Deadlines cfg owed l' := by
  induction hmoves with
  | refl => exact h
  | tail _ hdoes ih => exact ih.does hdoes

/-- A connection starts under its handshake deadline. -/
theorem Deadlines.accept (h : Deadlines cfg owed l) (hecho : cfg.echo = false)
    (htimeout : 0 < cfg.handshakeTimeoutMs) (now key : Nat) :
    Deadlines cfg owed (l.accept cfg now key) := by
  rcases accept_cases cfg now l key with hsame | hacc
  · rw [hsame]
    exact h
  obtain ⟨n, htracks, hall⟩ := h
  have hcalls : acceptCalls cfg key now =
      [.armHandshake key (saturatingAdd (nowMs now) cfg.handshakeTimeoutMs)] := by
    rw [acceptCalls, if_pos ⟨by rw [hecho]; exact Bool.false_ne_true, htimeout⟩]
  have hon : ∀ c ∈ acceptCalls cfg key now, c.On key := on_acceptCalls now
  have htracks' := htracks.callsOn hon
  rw [← hacc.wheel] at htracks'
  refine ⟨_, htracks', fun k => ?_⟩
  rw [hacc.acceptedMs]
  by_cases hkey : k = key
  · subst hkey
    rw [hacc.sets.entry, Function.update_self, hcalls]
    refine ⟨nofun, ?_, ?_⟩
    · rintro _ ⟨⟩ -
      exact ⟨false, by simp [Timers.call, Timers.arm, Timers.set, Timer.Kind.family], nofun⟩
    · rintro _ ⟨⟩ htrue
      cases htrue
  · rw [Timers.calls_ne (on_acceptCalls now) hkey, hacc.sets.others k hkey,
      Function.update_of_ne hkey]
    exact hall k

/-! ## Timers -/

/-- Reading the timers: what fires is owed its action. -/
theorem Deadlines.due (h : Deadlines cfg [] l) (now : Nat) :
    Deadlines cfg (l.wheel.due (nowMs now)).1 { l with wheel := (l.wheel.due (nowMs now)).2 } := by
  obtain ⟨n, htracks, hall⟩ := h
  refine ⟨_, htracks.due (nowMs_lt now), fun key => ?_⟩
  have hentry := hall key
  refine ⟨fun hnone family => ?_, fun e he hsession => ?_, fun e he hsession => ?_⟩
  · unfold Timers.fire
    rw [hentry.vacant hnone family]
    rfl
  · obtain ⟨fired, hs, hfired⟩ := hentry.waiting e he hsession
    have hunfired : fired = false := Bool.eq_false_iff.mpr fun h => by cases hfired h
    unfold Timers.fire
    rw [hs, Option.map_some]
    split
    · rename_i hpast
      exact ⟨true, rfl, fun _ => htracks.mem_due hs hunfired hpast⟩
    · subst hunfired
      exact ⟨false, rfl, nofun⟩
  · obtain ⟨hnone, s, hs, hfired⟩ := hentry.live e he hsession
    have hunfired : s.fired = false := Bool.eq_false_iff.mpr fun h => by cases hfired h
    unfold Timers.fire
    rw [hs, hnone, Option.map_some]
    refine ⟨rfl, ?_⟩
    split
    · rename_i hpast
      have hmem := htracks.mem_due hs hunfired hpast
      exact ⟨_, rfl, fun _ => hmem⟩
    · refine ⟨s, rfl, fun h => ?_⟩
      rw [hunfired] at h
      cases h

/-- The call a due timer's action makes settles it. -/
def Settles : Timer.Due → TimerCall → Prop
  | .ping key, c => c = .clearLiveness key ∨ (∃ nowMs, c = .markPingSent key nowMs) ∨
      c = .remove key
  | .close4201 key, c | .close4202 key, c => c = .remove key
  | .handshakeTimeout key, c => c = .clearHandshake key ∨ c = .remove key

/-- A deadline that fires is settled by one call on the wheel. -/
theorem fire_wheel (text : Nat → Bytes) (pass : Pass) (l : Loop) (due : Timer.Due) :
    ∃ c, (fire text pass l due).wheel = l.wheel.call c ∧ Settles due c := by
  have hclose (key code : Nat) (reason : String) (text : Option Bytes) :
      (l.closeDue key code reason text pass).wheel = l.wheel.call (.remove key) := by
    unfold closeDue
    split <;> rfl
  cases due with
  | ping key =>
    show ∃ c, (l.pingDue key (text key) pass).wheel = _ ∧ _
    unfold pingDue
    split
    · exact ⟨_, rfl, .inl rfl⟩
    · dsimp only
      split
      · exact ⟨_, rfl, .inr (.inr rfl)⟩
      · exact ⟨_, rfl, .inr (.inl ⟨_, rfl⟩)⟩
  | close4201 | close4202 => exact ⟨_, hclose .., rfl⟩
  | handshakeTimeout key =>
    show ∃ c, (l.handshakeDue key).wheel = _ ∧ _
    unfold handshakeDue
    split
    · split
      · exact ⟨_, rfl, .inl rfl⟩
      · exact ⟨_, rfl, .inr rfl⟩
    · exact ⟨_, rfl, .inl rfl⟩

end Loop

/-- The wheel tells its timers. -/
theorem TimerWheel.Tracks.unique {n' : Timers} (h : w.Tracks n) (h' : w.Tracks n') : n = n' := by
  funext conn family
  have htable := (h.table family conn).symm.trans (h'.table family conn)
  -- an unfired deadline of the one is on the timeline, so it is one of the other
  have hpending {m m' : Timers} (hm : w.Tracks m) (hm' : w.Tracks m') {t : Timer}
      (ht : m conn family = some ⟨t, false⟩) : m' conn family = some ⟨t, false⟩ := by
    have hfamily : t.kind.family = family := hm.family conn family _ ht
    have hholds := (hm.holds t.deadlineMs ⟨conn, t.kind⟩).mpr (by
      show m conn t.kind.family = _
      rw [hfamily, ht])
    have hp := (hm'.holds _ _).mp hholds
    unfold Timers.Pending at hp
    rwa [hfamily] at hp
  cases hn : n conn family with
  | none =>
    rw [hn] at htable
    exact (Option.map_eq_none_iff.mp htable.symm).symm
  | some s =>
    obtain ⟨t, fired⟩ := s
    rw [hn] at htable
    obtain ⟨⟨t', fired'⟩, hn', rfl⟩ := Option.map_eq_some_iff.mp htable.symm
    cases fired with
    | false => exact (hpending h h' hn).symm
    | true =>
      cases fired' with
      | true => exact hn'.symm
      | false => exact hn.symm.trans ((hpending h' h hn').trans hn'.symm)

/-- An action is no longer owed once no deadline it would settle has fired. -/
theorem Deadlined.settle {cfg : LoopConfig} {owed : List Timer.Due} {due : Timer.Due}
    {acceptedMs : Nat} {timers : Timer.Family → Option Timer.State} {entry : Option WorkerEntry}
    (h : Deadlined cfg (due :: owed) acceptedMs key timers entry)
    (hsettled : ∀ family s, family ≠ .lifetime → timers family = some s → s.fired = true →
      (⟨key, s.timer.kind⟩ : Timer.Slot).due ≠ due) :
    Deadlined cfg owed acceptedMs key timers entry where
  vacant := h.vacant
  waiting := by
    intro e he hsession
    obtain ⟨fired, hs, howed⟩ := h.waiting e he hsession
    refine ⟨fired, hs, fun hfired => ?_⟩
    exact (List.mem_cons.mp (howed hfired)).resolve_left
      (hsettled .handshake _ (by decide) hs hfired)
  live := by
    intro e he hsession
    obtain ⟨hnone, s, hs, howed⟩ := h.live e he hsession
    refine ⟨hnone, s, hs, fun hfired => ?_⟩
    exact (List.mem_cons.mp (howed hfired)).resolve_left
      (hsettled .liveness _ (by decide) hs hfired)

namespace Loop

/-- After a due timer's action, no deadline of its kind has fired. -/
theorem Settles.settled {due : Timer.Due} {c : TimerCall} (h : Settles due c) {n : Timers}
    {activityTimeoutMs pongTimeoutMs key : Nat} {family : Timer.Family} {s : Timer.State}
    (hfamily : s.timer.kind.family = family) (hne : family ≠ .lifetime)
    (hs : n.call activityTimeoutMs pongTimeoutMs c key family = some s) (hfired : s.fired = true) :
    (⟨key, s.timer.kind⟩ : Timer.Slot).due ≠ due := by
  rintro rfl
  obtain ⟨⟨deadlineMs, kind⟩, fired⟩ := s
  obtain rfl : fired = true := hfired
  subst hfamily
  have hremove : c ≠ .remove key := by
    rintro rfl
    rw [Timers.remove_self] at hs
    cases hs
  cases kind with
  | lifetime => exact hne rfl
  | idle =>
    rcases h with rfl | ⟨nowMs, rfl⟩ | h
    · simp [Timers.call, Timers.set, Timer.Kind.family] at hs
    · simp [Timers.call, Timers.arm, Timers.set, Timer.Kind.family] at hs
    · exact hremove h
  | pong => exact hremove h
  | handshake =>
    rcases h with rfl | h
    · simp [Timers.call, Timers.set, Timer.Kind.family] at hs
    · exact hremove h

variable {cfg : LoopConfig} {read : Nat → Prop} {owed : List Timer.Due} {l l' : Loop}

theorem Deadlines.fire {due : Timer.Due} (h : Deadlines cfg (due :: owed) l) (hsane : l.Sane)
    (hlegit : l.Legit due) (text : Nat → Bytes) (pass : Pass) :
    Deadlines cfg owed (fire text pass l due) := by
  obtain ⟨n, htracks, -⟩ := id h
  have hmoves : l.Moves cfg (fun _ => True) Awaits (Loop.fire text pass l due) :=
    fire_moves hsane text pass due hlegit
  obtain ⟨n', htracks', hall⟩ := h.moves hmoves
  obtain ⟨c, hwheel, hsettles⟩ := fire_wheel text pass l due
  refine ⟨n', htracks', fun key => (hall key).settle fun family s hne hs hfired => ?_⟩
  have hcall : n' = n.call l.wheel.activityTimeoutMs l.wheel.pongTimeoutMs c := by
    refine htracks'.unique ?_
    rw [hwheel]
    refine htracks.call c fun nowMs hc => ?_
    subst hc
    cases due <;> simp [Settles] at hsettles
  have hfamily := htracks'.family key family s hs
  rw [hcall] at hs
  exact hsettles.settled hfamily hne hs hfired

theorem Deadlines.fireAll (text : Nat → Bytes) (pass : Pass) {dues : List Timer.Due}
    (h : Deadlines cfg dues l) (hsane : l.Sane) (hlegit : ∀ due ∈ dues, l.Legit due) :
    Deadlines cfg [] (dues.foldl (Loop.fire text pass) l) := by
  have halong := fire_along cfg text pass dues hsane hlegit
  clear hsane hlegit
  induction dues generalizing l with
  | nil => exact h
  | cons _ _ ih => exact ih (h.fire halong.1.1 halong.1.2 text pass) halong.2

/-! ## Every run -/

/-- What holds at every loop top. -/
structure Watched (cfg : LoopConfig) (l : Loop) : Prop where
  sane : l.Sane
  timed : l.Timed
  deadlines : Deadlines cfg [] l

theorem Watched.moves (h : Watched cfg l) (hmoves : l.Moves cfg read Awaits l') : Watched cfg l' :=
  ⟨h.sane.moves hmoves, h.timed.moves hmoves, h.deadlines.moves hmoves⟩

theorem Watched.accept (h : Watched cfg l) (hecho : cfg.echo = false)
    (htimeout : 0 < cfg.handshakeTimeoutMs) (now key : Nat) :
    Watched cfg (l.accept cfg now key) := by
  have hdeadlines := h.deadlines.accept hecho htimeout now key
  rcases accept_cases cfg now l key with hsame | hacc
  · rw [hsame]
    exact h
  · exact ⟨hacc.sane h.sane, hacc.timed h.timed, hdeadlines⟩

theorem Watched.acceptAll (h : Watched cfg l) (hecho : cfg.echo = false)
    (htimeout : 0 < cfg.handshakeTimeoutMs) (now : Nat) (keys : List Nat) :
    Watched cfg (keys.foldl (Loop.accept cfg now) l) := by
  induction keys generalizing l with
  | nil => exact h
  | cons key _ ih => exact ih (h.accept hecho htimeout now key)

theorem Watched.timers (h : Watched cfg l) (hecho : cfg.echo = false) (text : Nat → Bytes)
    (pass : Pass) : Watched cfg (l.timers cfg text pass) := by
  have hmoves : Moves cfg (fun _ => True) Awaits _ _ :=
    h.timed.timers_moves h.sane hecho text pass
  have hsane : Loop.Sane { l with wheel := (l.wheel.due (nowMs pass.now)).2 } := h.sane
  have htimed : Loop.Timed { l with wheel := (l.wheel.due (nowMs pass.now)).2 } := h.timed
  refine ⟨hsane.moves hmoves, htimed.moves hmoves, ?_⟩
  rw [timers_eq hecho]
  exact (h.deadlines.due pass.now).fireAll text pass h.sane fun _ hmem => h.timed.legit hmem

variable {items : List Item}

/-- Sending alone moves no deadline. -/
theorem Watched.sends (h : Watched cfg l) {key : Nat} {e e' : WorkerEntry}
    (hkey : l.worker.conns.hget key = some e) (hsends : e.Sends e' items)
    (hat : l.At l' key items [] (some e')) : Watched cfg l' := by
  have hwheel : l'.wheel = l.wheel := hat.wheel
  refine ⟨?_, ?_, ?_⟩
  · intro k e'' hk
    by_cases hk' : k = key
    · subst hk'
      rw [hat.sets.entry] at hk
      cases hk
      exact hsends.sane (h.sane k e hkey)
    · exact h.sane k e'' ((hat.sets.others k hk').symm.trans hk)
  · intro k hk
    rw [hwheel]
    refine h.timed k fun e'' he'' => ?_
    by_cases hk' : k = key
    · subst hk'
      rw [hkey] at he''
      cases he''
      exact hsends.session.symm.trans (hk e' hat.sets.entry)
    · exact hk e'' ((hat.sets.others k hk').trans he'')
  · obtain ⟨n, htracks, hall⟩ := h.deadlines
    refine ⟨n, hwheel ▸ htracks, fun k => ?_⟩
    rw [hat.acceptedMs]
    by_cases hk' : k = key
    · subst hk'
      have hentry := hall k
      rw [hkey] at hentry
      rw [hat.sets.entry]
      exact hentry.kept hsends.session rfl (.inl rfl)
    · rw [hat.sets.others k hk']
      exact hall k

theorem Watched.goodbye (h : Watched cfg l) (text : Nat → Bytes) (pass : Pass) (key : Nat) :
    Watched cfg (drainCloseConnection text pass l key) := by
  rcases drainCloseConnection_cases text pass l key with hsame | ⟨e, hkey, ⟨e', hsends, hat⟩ | hat⟩
  · rw [hsame]
    exact h
  · exact h.sends hkey hsends hat
  · -- but for its record, a connection that goes
    have hgone : l.Does cfg (fun _ => True) Awaits
        { drainCloseConnection text pass l key with wire := l.wire } := by
      refine ⟨key, [], [] ++ [.remove key], none, ?_, hat.sets, hat.wheel, hat.acceptedMs, ?_⟩
      · exact .leave [] (fun _ => rfl) (fun _ _ _ => rfl) (fun _ _ _ => rfl) (by simp)
      · rw [List.append_nil, Function.update_eq_self]
    have hwatched := h.moves hgone.moves
    exact ⟨hwatched.sane, hwatched.timed, hwatched.deadlines⟩

theorem Watched.shutdown (h : Watched cfg l) (text : Nat → Bytes) (expired : Bool) (pass : Pass) :
    Watched cfg (l.shutdown text expired pass) := by
  refine shutdown_invariant text expired pass (fun _ key h => h.goodbye text pass key)
    (fun l key h => ?_) (fun _ _ _ h => ⟨h.sane, h.timed, h.deadlines⟩) h
  have hmoves : l.Moves cfg (fun _ => True) Awaits (l.remove key) := remove_moves l key
  exact h.moves hmoves

/-- Whenever the writable path establishes a session, the connection's liveness
deadline is armed and has not fired. -/
def Monitored (cfg : LoopConfig) (l : Loop) : LoopAct → Prop
  | .event key ready now => WatchedAt cfg Awaits l key ready now
  | _ => True

theorem Watched.step (hecho : cfg.echo = false) (htimeout : 0 < cfg.handshakeTimeoutMs)
    (h : Watched cfg l) (a : LoopAct) (hmonitored : Monitored cfg l a) :
    Watched cfg (loopStep cfg l a) := by
  have hmoves (l' : Loop) (hm : l.Moves cfg (fun _ => True) Awaits l') : Watched cfg l' :=
    h.moves hm
  refine step_cases hecho h.sane a ?_ h hmoves
    (fun text expired pass _ => h.shutdown text expired pass)
    (fun keys now => h.acceptAll hecho htimeout now keys) fun text pass => h.timers hecho text pass
  rintro key ready now rfl
  exact ⟨fun _ => trivial, hmonitored⟩

theorem Watched.start (cfg : LoopConfig) (activityTimeoutSecs pongTimeoutSecs : Nat) :
    Watched cfg (.start activityTimeoutSecs pongTimeoutSecs) where
  sane := (Talking.start cfg activityTimeoutSecs pongTimeoutSecs).sane
  timed := (Talking.start cfg activityTimeoutSecs pongTimeoutSecs).timed
  deadlines :=
    ⟨.empty, TimerWheel.tracks_withTimeouts _ _, fun _ => .vacated fun _ => rfl⟩

/-! ## Silence -/

variable {key : Nat}

/-- The peer of `key` sends nothing. -/
def Silent (key : Nat) : LoopAct → Prop
  | .event k ready _ => k = key → ready.readable = none
  | _ => True

/-- The deadline a connection is under has passed: that of its handshake, and with a
session that of its liveness. -/
def Passed (l : Loop) (key nowMs : Nat) : Prop :=
  ∀ deadlineMs kind, l.wheel.timeline.Holds deadlineMs ⟨key, kind⟩ →
    (kind = .handshake ∨ kind.family = .liveness ∧
      ∃ e, l.worker.conns.hget key = some e ∧ e.session = true) → deadlineMs ≤ nowMs

/-- A connection that was pinged and has not answered, if there still is one. -/
def Ponging (key : Nat) (l : Loop) : Prop :=
  ∀ e, l.worker.conns.hget key = some e →
    e.session = true ∧ ∃ t, l.wheel.live.hget key = some t ∧ t.kind = .pong

variable {k : Nat}

theorem Ponging.elsewhere {calls : List TimerCall} {entry : Option WorkerEntry} (h : Ponging key l)
    (hat : l.At l' k items calls entry) (hon : ∀ c ∈ calls, c.On k) (hne : key ≠ k) :
    Ponging key l' := by
  intro e he
  rw [hat.wheel, (TimerWheel.tables_calls hon hne).2]
  exact h e ((hat.sets.others key hne).symm.trans he)

/-- Whatever happens to a pinged connection but being read from. -/
theorem Ponging.moves {watched : Loop → Nat → Prop} (h : Ponging key l) (hread : ¬ read key)
    (hmoves : l.Moves cfg read watched l') : Ponging key l' := by
  induction hmoves with
  | refl => exact h
  | @tail l₁ l₂ _ hdoes ih =>
    obtain ⟨k, items, calls, entry, hmove, hat⟩ := hdoes
    by_cases hk : key = k
    swap
    · exact ih.elsewhere hat hmove.on hk
    subst hk
    -- without a `touch`, the calls leave the pong timer or set it again
    have hquiet {calls : List TimerCall} (htouches : Touches (read key) key calls) : calls = [] :=
      htouches.resolve_right fun h => hread h.1
    intro e' he'
    rw [hat.wheel]
    replace he' := hat.sets.entry.symm.trans he'
    subst he'
    generalize hentry : l₁.worker.conns.hget key = before at hmove
    cases hmove with
    | converse state sends talk touches | wait state sends touches =>
      obtain ⟨hsession, hpong⟩ := ih _ hentry
      rw [hquiet touches]
      exact ⟨sends.session.trans hsession, hpong⟩
    | park response state session | establish response now state session =>
      exact absurd (session.symm.trans (ih _ hentry).1) (by decide)
    | resume _ _ session =>
      exact absurd (session.symm.trans (ih _ hentry).1) (by decide)
    | ping _ _ session sends =>
      exact ⟨sends.session.trans session, _, Hash.hget_hset_self .., rfl⟩
    | forget session => exact absurd ((session _ rfl).symm.trans (ih _ hentry).1) (by decide)
    | excuse => exact ih _ hentry

theorem fire_session (text : Nat → Bytes) (pass : Pass) (l : Loop) (due : Timer.Due)
    {e' : WorkerEntry} (he' : (fire text pass l due).worker.conns.hget k = some e') :
    ∃ e, l.worker.conns.hget k = some e ∧ e'.session = e.session := by
  rw [worker_fire] at he'
  obtain ⟨key, entry, hsets, hentry⟩ := l.worker.spares_fireDue (.ofTimer text due) pass
  by_cases hk : k = key
  · subst hk
    exact hentry e' (hsets.entry.symm.trans he')
  · exact ⟨e', (hsets.others k hk).symm.trans he', rfl⟩

/-- Working off the due timers, from some state of the connection to another. -/
theorem fire_leads (cfg : LoopConfig) {dues : List Timer.Due} {due : Timer.Due} (hmem : due ∈ dues)
    (hsane : l.Sane) (hlegit : ∀ due ∈ dues, l.Legit due) (text : Nat → Bytes) (pass : Pass)
    (P Q : Loop → Prop) (hbefore : ∀ l due, P l → P (fire text pass l due))
    (hleads : ∀ l : Loop, l.Sane → P l → Q (fire text pass l due))
    (hafter : ∀ l l' : Loop, l.Moves cfg (fun _ => False) (fun _ _ => True) l' → Q l → Q l')
    (hl : P l) : Q (dues.foldl (fire text pass) l) := by
  refine (fire_along cfg text pass dues hsane hlegit).leads hmem
    (fun l due h _ => hbefore l due h) (fun l h hok => hleads l hok.1 h) (fun l due h hok => ?_) hl
  exact hafter l _ (fire_moves hok.1 text pass due hok.2) h

theorem closeDue_vacant (l : Loop) (key code : Nat) (reason : String) (text : Option Bytes)
    (pass : Pass) : (l.closeDue key code reason text pass).worker.conns.hget key = none := by
  unfold closeDue
  split
  · exact (l.worker.sets_release key).entry
  · rename_i hkey
    exact (Worker.sets_closeDue hkey code reason text pass).entry

/-- A ping sets the pong timer, or its flush fails. -/
theorem pingDue_ponging (hsane : l.Sane)
    (hlive : ∀ e, l.worker.conns.hget key = some e → e.session = true) (text : Bytes)
    (pass : Pass) : Ponging key (l.pingDue key text pass) := by
  intro e' he'
  unfold pingDue at he' ⊢
  cases hopen : l.worker.openConn key with
  | none =>
    rw [hopen] at he'
    rw [hsane.openConn he' (hlive e' he')] at hopen
    cases hopen
  | some e =>
    rw [hopen] at he'
    obtain ⟨-, hsession, -⟩ := Worker.session_of_openConn hopen
    have hleft := (sets_ping hopen text pass).entry.symm.trans he'
    have hsends := (WorkerEntry.converses_talk e (.event text) rfl (pass.site key) pass.now).sends
    refine ⟨(sends_of_left hsends hleft).session.trans hsession, ?_⟩
    dsimp only
    split
    · rename_i hclose
      rw [left_of_ne (by rw [hclose]; decide)] at hleft
      cases hleft
    · exact ⟨_, Hash.hget_hset_self .., rfl⟩

theorem handshakeDue_vacant (hwait : ∀ e, l.worker.conns.hget key = some e → e.session = false) :
    (l.handshakeDue key).worker.conns.hget key = none := by
  unfold handshakeDue
  cases hkey : l.worker.conns.hget key with
  | none => exact hkey
  | some e =>
    dsimp only
    rw [hwait e hkey, if_neg Bool.false_ne_true]
    exact (l.worker.sets_release key).entry

/-- Reading the timers when the deadline of `key` has passed: the connection is
gone, or it had not been pinged and now has been. -/
theorem Watched.timers_passed (h : Watched cfg l) (hecho : cfg.echo = false) (text : Nat → Bytes)
    (pass : Pass) (hpassed : l.Passed key (nowMs pass.now)) :
    (l.timers cfg text pass).worker.conns.hget key = none ∨
      ¬ Ponging key l ∧ Ponging key (l.timers cfg text pass) := by
  rw [timers_eq hecho]
  have hsane : Loop.Sane { l with wheel := (l.wheel.due (nowMs pass.now)).2 } := h.sane
  have hlegit (due : Timer.Due) (hmem : due ∈ (l.wheel.due (nowMs pass.now)).1) :
      Loop.Legit { l with wheel := (l.wheel.due (nowMs pass.now)).2 } due := h.timed.legit hmem
  obtain ⟨n, htracks, hall⟩ := h.deadlines
  -- a pending deadline of the connection that counts has passed, so its action is due
  have hdue {family : Timer.Family} {t : Timer} (hs : n key family = some ⟨t, false⟩)
      (hcounts : t.kind = .handshake ∨ t.kind.family = .liveness ∧
        ∃ e, l.worker.conns.hget key = some e ∧ e.session = true) :
      (⟨key, t.kind⟩ : Timer.Slot).due ∈ (l.wheel.due (nowMs pass.now)).1 := by
    refine htracks.mem_due hs rfl (hpassed t.deadlineMs t.kind ((htracks.holds _ _).mpr ?_) hcounts)
    show n key t.kind.family = _
    rw [htracks.family key family _ hs, hs]
  have hentry := hall key
  cases hkey : l.worker.conns.hget key with
  | none =>
    have hmoves : Loop.Moves cfg (fun _ => True) Awaits _ _ :=
      fire_foldl_moves text pass _ hsane hlegit
    exact .inl (hmoves.vacant hkey)
  | some e =>
    rw [hkey] at hentry
    cases hsession : e.session with
    | false =>
      obtain ⟨fired, hs, howed⟩ := hentry.waiting e rfl hsession
      obtain rfl : fired = false := Bool.eq_false_iff.mpr fun h => by cases howed h
      refine .inl (fire_leads cfg (hdue hs (.inl rfl)) hsane hlegit text pass
        (fun l => ∀ e, l.worker.conns.hget key = some e → e.session = false)
        (fun l => l.worker.conns.hget key = none) ?_ ?_ ?_ ?_)
      · intro l due hwait e' he'
        obtain ⟨e, he, heq⟩ := fire_session text pass l due he'
        exact heq.trans (hwait e he)
      · exact fun l _ hwait => handshakeDue_vacant hwait
      · exact fun l l' hmoves hnone => hmoves.vacant hnone
      · intro e' he'
        rw [hkey] at he'
        cases he'
        exact hsession
    | true =>
      obtain ⟨-, ⟨⟨deadlineMs, kind⟩, fired⟩, hs, howed⟩ := hentry.live e rfl hsession
      obtain rfl : fired = false := Bool.eq_false_iff.mpr fun h => by cases howed h
      have hfamily : kind.family = .liveness := htracks.family key .liveness _ hs
      have hmem := hdue hs (.inr ⟨hfamily, e, hkey, hsession⟩)
      cases kind with
      | lifetime | handshake => cases hfamily
      | pong =>
        refine .inl (fire_leads cfg hmem hsane hlegit text pass (fun _ => True)
          (fun l => l.worker.conns.hget key = none) (fun _ _ _ => trivial) ?_ ?_ trivial)
        · exact fun l _ _ => closeDue_vacant l key _ _ _ pass
        · exact fun l l' hmoves hnone => hmoves.vacant hnone
      | idle =>
        refine .inr ⟨fun hponging => ?_, fire_leads cfg hmem hsane hlegit text pass
          (fun l => ∀ e, l.worker.conns.hget key = some e → e.session = true) (Ponging key)
          ?_ ?_ ?_ ?_⟩
        · obtain ⟨-, t, ht, hkind⟩ := hponging e hkey
          have htable : l.wheel.table .liveness key = some t := ht
          rw [htracks.table, hs] at htable
          cases htable
          cases hkind
        · intro l due hlive e' he'
          obtain ⟨e, he, heq⟩ := fire_session text pass l due he'
          exact heq.trans (hlive e he)
        · exact fun l hsane hlive => pingDue_ponging hsane hlive _ pass
        · exact fun l l' hmoves hponging => hponging.moves not_false hmoves
        · intro e' he'
          rw [hkey] at he'
          cases he'
          exact hsession

section

variable (h : Ponging key l)

include h

theorem Ponging.gone (hat : l.At l' k items [.remove k] none) :
    Ponging key l' := by
  by_cases hk : key = k
  · subst hk
    intro e he
    rw [hat.sets.entry] at he
    cases he
  · exact h.elsewhere hat (by simp [TimerCall.On]) hk

/-- A goodbye says nothing about timers, unless the connection goes. -/
theorem Ponging.goodbye (text : Nat → Bytes) (pass : Pass) (k : Nat) :
    Ponging key (drainCloseConnection text pass l k) := by
  rcases drainCloseConnection_cases text pass l k with hsame | ⟨e, hkey, ⟨e', hsends, hat⟩ | hat⟩
  · rw [hsame]
    exact h
  · by_cases hk : key = k
    · subst hk
      intro e'' he''
      rw [hat.sets.entry] at he''
      cases he''
      rw [hat.wheel]
      exact ⟨hsends.session.trans (h e hkey).1, (h e hkey).2⟩
    · exact h.elsewhere hat (by simp) hk
  · exact h.gone hat

theorem Ponging.shutdown (text : Nat → Bytes) (expired : Bool) (pass : Pass) :
    Ponging key (l.shutdown text expired pass) :=
  shutdown_invariant text expired pass (fun _ k h => h.goodbye text pass k)
    (fun l k h => h.gone (advance_at (l.worker.sets_release k) [] _)) (fun _ _ _ h => h) h

theorem Ponging.accept (hthere : l.worker.conns.hget key ≠ none)
    (now k : Nat) :
    Ponging key (l.accept cfg now k) ∧ (l.accept cfg now k).worker.conns.hget key ≠ none := by
  rcases accept_cases cfg now l k with hsame | hacc
  · rw [hsame]
    exact ⟨h, hthere⟩
  · have hk : key ≠ k := fun heq => hthere (heq ▸ hacc.vacant)
    refine ⟨fun e he => ?_, ?_⟩
    · rw [hacc.wheel, (TimerWheel.tables_calls (on_acceptCalls now) hk).2]
      exact h e ((hacc.sets.others key hk).symm.trans he)
    · rw [hacc.sets.others key hk]
      exact hthere

theorem Ponging.acceptAll (hthere : l.worker.conns.hget key ≠ none)
    (now : Nat) (keys : List Nat) : Ponging key (keys.foldl (Loop.accept cfg now) l) := by
  induction keys generalizing l with
  | nil => exact h
  | cons k _ ih => exact ih (h.accept hthere now k).1 (h.accept hthere now k).2

/-- Only a frame of the connection itself answers a ping. -/
theorem Ponging.step (hwatched : Watched cfg l) (hecho : cfg.echo = false)
    (hthere : l.worker.conns.hget key ≠ none) (a : LoopAct) (hsilent : Silent key a)
    (hmonitored : Monitored cfg l a) : Ponging key (loopStep cfg l a) := by
  have hmoves (l' : Loop) (hm : l.Moves cfg (· ≠ key) Awaits l') : Ponging key l' :=
    h.moves (fun hne => hne rfl) hm
  refine step_cases hecho hwatched.sane a ?_ h hmoves
    (fun text expired pass _ => h.shutdown text expired pass)
    (fun keys now => h.acceptAll hthere now keys) fun text pass => ?_
  · rintro k ready now rfl
    exact ⟨fun hready hk => hready (hsilent hk), hmonitored⟩
  · have hdue : Ponging key { l with wheel := (l.wheel.due (nowMs pass.now)).2 } := h
    have hfire : Moves cfg (· ≠ key) Awaits _ _ :=
      hwatched.timed.timers_moves hwatched.sane hecho text pass
    exact hdue.moves (fun hne => hne rfl) hfire

end

/-- A worker that has stopped has no connections. -/
def Emptied (l : Loop) : Prop := l.worker.stopped = true → ∀ key, l.worker.conns.hget key = none

theorem Moves.stopped {watched : Loop → Nat → Prop} (h : l.Moves cfg read watched l') :
    l'.worker.stopped = l.worker.stopped := by
  induction h with
  | refl => rfl
  | tail _ hdoes ih =>
    obtain ⟨k, items, calls, entry, -, hat⟩ := hdoes
    exact hat.sets.stopped.trans ih

theorem emptied_stop (l : Loop) : l.stop.Emptied := by
  intro _ key
  show (run Loop.remove l l.worker.keys).worker.conns.hget key = none
  have hkeep (l : Loop) (k : Nat) (h : l.worker.conns.hget key = none) :
      (l.remove k).worker.conns.hget key = none := by
    by_cases hk : key = k
    · subst hk
      exact (l.worker.sets_release key).entry
    · exact ((l.worker.sets_release k).others key hk).trans h
  by_cases hmem : key ∈ l.worker.keys
  · exact run_establishes hmem (fun l => (l.worker.sets_release key).entry) hkeep l
  · refine run_invariant hkeep ?_ _
    by_contra hthere
    exact hmem ((Finset.mem_sort _).mpr (Hash.mem_hkeys.mpr hthere))

theorem stopped_goodbye (text : Nat → Bytes) (pass : Pass) (l : Loop) (key : Nat) :
    (drainCloseConnection text pass l key).worker.stopped = l.worker.stopped := by
  rcases drainCloseConnection_cases text pass l key with hsame | ⟨e, -, ⟨e', -, hat⟩ | hat⟩
  · rw [hsame]
  · exact hat.sets.stopped
  · exact hat.sets.stopped

theorem stopped_foldl {α : Type*} {f : Loop → α → Loop}
    (hf : ∀ l a, (f l a).worker.stopped = l.worker.stopped) (l : Loop) (as : List α) :
    (as.foldl f l).worker.stopped = l.worker.stopped := by
  induction as generalizing l with
  | nil => rfl
  | cons a _ ih => exact (ih _).trans (hf l a)

/-- Only the shutdown block stops the worker. -/
theorem Emptied.step (hecho : cfg.echo = false) (h : l.Emptied) (hsane : l.Sane) (a : LoopAct) :
    (loopStep cfg l a).Emptied := by
  by_cases hrun : l.worker.stopped = true
  · unfold loopStep
    rw [if_pos hrun]
    exact h
  have hruns {l' : Loop} (hsame : l'.worker.stopped = l.worker.stopped) : l'.Emptied :=
    fun hstopped => absurd (hsame.symm.trans hstopped) hrun
  have hmoves (l' : Loop) (hm : l.Moves cfg (fun _ => True) (fun _ _ => True) l') : l'.Emptied :=
    hruns hm.stopped
  refine step_cases hecho hsane a (fun _ _ _ _ => ⟨fun _ => trivial, fun _ _ _ _ _ _ _ => trivial⟩)
    h hmoves (fun text _ pass _ => ?_) (fun keys now => ?_) fun text pass => ?_
  · have hstart : (if l.worker.drainStarted then l else l.startDrain text pass).worker.stopped =
        l.worker.stopped := by
      split
      · rfl
      · exact stopped_foldl (stopped_goodbye text pass) l _
    unfold Loop.shutdown
    dsimp only
    generalize (if l.worker.drainStarted then l else l.startDrain text pass) = l' at hstart
    split
    · exact emptied_stop l'
    · exact hruns hstart
  · refine hruns (stopped_foldl (fun l key => ?_) l keys)
    rcases accept_cases cfg now l key with hsame | hacc
    · rw [hsame]
    · exact hacc.sets.stopped
  · rw [timers_eq hecho]
    refine hruns (stopped_foldl (fun l due => ?_) _ _)
    rw [worker_fire, Worker.stopped_fireDue]

end Loop

/-! ## Runs -/

namespace Loop

/-- The timers are read for as long as there are connections. -/
theorem Emptied.timers {cfg : LoopConfig} {key : Nat} {l : Loop} (h : l.Emptied)
    (hthere : l.worker.conns.hget key ≠ none) (text : Nat → Bytes) (pass : Pass) :
    loopStep cfg l (.timers text pass) = l.timers cfg text pass := by
  unfold loopStep
  rw [if_neg fun hstopped => hthere (h hstopped key)]

/-- What holds between two steps. -/
structure Top (cfg : LoopConfig) (l : Loop) : Prop extends Watched cfg l where
  emptied : l.Emptied

theorem Top.start (cfg : LoopConfig) (activityTimeoutSecs pongTimeoutSecs : Nat) :
    Top cfg (.start activityTimeoutSecs pongTimeoutSecs) :=
  ⟨.start cfg _ _, fun hstopped => by cases hstopped⟩

variable {cfg : LoopConfig} (hecho : cfg.echo = false) (htimeout : 0 < cfg.handshakeTimeoutMs)
  {key : Nat} {l : Loop}

include hecho htimeout

theorem Top.step (h : Top cfg l) (a : LoopAct) (hmonitored : Monitored cfg l a) :
    Top cfg (loopStep cfg l a) :=
  ⟨h.toWatched.step hecho htimeout a hmonitored, h.emptied.step hecho h.sane a⟩

theorem Top.along {acts : List LoopAct} (halong : Along (loopStep cfg) (Monitored cfg) l acts)
    (h : Top cfg l) : Top cfg (run (loopStep cfg) l acts) :=
  halong.invariant (fun _ a (h : Top cfg _) hm => h.step hecho htimeout a hm) h

/-- A pinged connection stays pinged for as long as it stays and its peer is silent. -/
theorem Ponging.along {acts : List LoopAct} (halong : Along (loopStep cfg) (Monitored cfg) l acts)
    (htop : Top cfg l) (h : Ponging key l) (hsilent : ∀ a ∈ acts, Silent key a)
    (hthere : ∀ pre, pre <+: acts → (run (loopStep cfg) l pre).worker.conns.hget key ≠ none) :
    Ponging key (run (loopStep cfg) l acts) := by
  induction acts generalizing l with
  | nil => exact h
  | cons a _ ih =>
    refine ih halong.2 (htop.step hecho htimeout a halong.1) ?_
      (fun a' ha' => hsilent a' (List.mem_cons_of_mem a ha')) fun pre hpre => ?_
    · exact h.step htop.toWatched hecho (hthere [] List.nil_prefix) a
        (hsilent a List.mem_cons_self) halong.1
    · exact hthere (a :: pre) (List.cons_prefix_cons.mpr ⟨rfl, hpre⟩)

/-- The timers are read twice with the deadline passed and nothing read from the
peer in between: at some point the connection is gone. -/
theorem Top.gone_of_silent {text₁ text₂ : Nat → Bytes} {pass₁ pass₂ : Pass}
    {between : List LoopAct} (htop : Top cfg l)
    (halong : Along (loopStep cfg) (Monitored cfg) l
      (.timers text₁ pass₁ :: (between ++ [.timers text₂ pass₂])))
    (hsilent : ∀ a ∈ between, Silent key a) (hpassed₁ : l.Passed key (nowMs pass₁.now))
    (hpassed₂ : (run (loopStep cfg) l (.timers text₁ pass₁ :: between)).Passed key
      (nowMs pass₂.now)) :
    ∃ pre, pre <+: .timers text₁ pass₁ :: (between ++ [.timers text₂ pass₂]) ∧
      (run (loopStep cfg) l pre).worker.conns.hget key = none := by
  by_contra hnever
  have hthere (pre : List LoopAct)
      (hpre : pre <+: .timers text₁ pass₁ :: (between ++ [.timers text₂ pass₂])) :
      (run (loopStep cfg) l pre).worker.conns.hget key ≠ none := fun hnone =>
    hnever ⟨pre, hpre, hnone⟩
  have hthere₀ := hthere [] List.nil_prefix
  -- the first reading pings it
  have hponging₁ : Ponging key (loopStep cfg l (.timers text₁ pass₁)) := by
    have hstays := hthere [.timers text₁ pass₁] (List.cons_prefix_cons.mpr ⟨rfl, List.nil_prefix⟩)
    rw [run_cons, run_nil, htop.emptied.timers hthere₀] at hstays
    rw [htop.emptied.timers hthere₀]
    exact ((htop.timers_passed hecho text₁ pass₁ hpassed₁).resolve_left hstays).2
  -- it stays pinged
  have htop₁ := htop.step hecho htimeout _ halong.1
  obtain ⟨hbetween, -⟩ := Along.append.mp halong.2
  have hponging₂ := hponging₁.along hecho htimeout hbetween htop₁ hsilent fun pre hpre =>
    hthere (.timers text₁ pass₁ :: pre)
      (List.cons_prefix_cons.mpr ⟨rfl, hpre.trans (List.prefix_append _ _)⟩)
  have htop₂ := htop₁.along hecho htimeout hbetween
  -- so the second reading closes it
  have hthere₂ := hthere (.timers text₁ pass₁ :: between)
    (List.cons_prefix_cons.mpr ⟨rfl, List.prefix_append _ _⟩)
  have hstays := hthere _ (List.prefix_refl _)
  rw [run_cons, run_append, run_cons, run_nil, htop₂.emptied.timers hthere₂] at hstays
  exact ((htop₂.timers_passed hecho text₂ pass₂ hpassed₂).resolve_left hstays).1 hponging₂

end Loop

/-- In every run of a dispatch-mode loop in which the writable path establishes only
connections under a liveness deadline, a connection without a session has its handshake
deadline pending, at its accept time plus the timeout, and one with a session has no
handshake deadline and its liveness deadline pending. And a connection whose deadline
has passed at two readings of the timers, with nothing read from its peer in between,
is removed. -/
theorem connections_deadlined (cfg : LoopConfig) (hecho : cfg.echo = false)
    (htimeout : 0 < cfg.handshakeTimeoutMs) (activityTimeoutSecs pongTimeoutSecs : Nat)
    (acts : List LoopAct)
    (hmonitored : Along (loopStep cfg) (Loop.Monitored cfg)
      (.start activityTimeoutSecs pongTimeoutSecs) acts) :
    (∃ n : Timers,
      let l := run (loopStep cfg) (.start activityTimeoutSecs pongTimeoutSecs) acts
      l.wheel.Tracks n ∧ ∀ key e, l.worker.conns.hget key = some e →
        if e.session then
          n key .handshake = none ∧ ∃ t, n key .liveness = some ⟨t, false⟩
        else
          n key .handshake = some
            ⟨⟨saturatingAdd (l.acceptedMs key) cfg.handshakeTimeoutMs, .handshake⟩, false⟩) ∧
      ∀ key before text₁ pass₁ between text₂ pass₂,
        acts = before ++ .timers text₁ pass₁ :: (between ++ [.timers text₂ pass₂]) →
        (∀ a ∈ between, Loop.Silent key a) →
        (run (loopStep cfg) (.start activityTimeoutSecs pongTimeoutSecs) before).Passed key
          (nowMs pass₁.now) →
        (run (loopStep cfg) (.start activityTimeoutSecs pongTimeoutSecs)
          (before ++ .timers text₁ pass₁ :: between)).Passed key (nowMs pass₂.now) →
        ∃ pre, before <+: pre ∧ pre <+: acts ∧
          (run (loopStep cfg) (.start activityTimeoutSecs pongTimeoutSecs) pre).worker.conns.hget
            key = none := by
  have hstart := Loop.Top.start cfg activityTimeoutSecs pongTimeoutSecs
  refine ⟨?_, ?_⟩
  · obtain ⟨n, htracks, hall⟩ := (hstart.along hecho htimeout hmonitored).deadlines
    refine ⟨n, htracks, fun key e hkey => ?_⟩
    split
    · rename_i hsession
      obtain ⟨hnone, ⟨t, fired⟩, hs, howed⟩ := (hall key).live e hkey hsession
      obtain rfl : fired = false := Bool.eq_false_iff.mpr fun h => by cases howed h
      exact ⟨hnone, t, hs⟩
    · rename_i hsession
      obtain ⟨fired, hs, howed⟩ := (hall key).waiting e hkey (Bool.eq_false_iff.mpr hsession)
      obtain rfl : fired = false := Bool.eq_false_iff.mpr fun h => by cases howed h
      exact hs
  · rintro key before text₁ pass₁ between text₂ pass₂ rfl hsilent hpassed₁ hpassed₂
    obtain ⟨hbefore, hrest⟩ := Along.append.mp hmonitored
    have htop := hstart.along hecho htimeout hbefore
    rw [run_append] at hpassed₂
    obtain ⟨pre, hpre, hnone⟩ :=
      htop.gone_of_silent hecho htimeout hrest hsilent hpassed₁ hpassed₂
    refine ⟨before ++ pre,
      List.prefix_append _ _, (List.prefix_append_right_inj before).mpr hpre, ?_⟩
    rw [run_append]
    exact hnone

/-- A session established on the readable path, after a ping. -/
theorem connections_deadlined_pinged :
    let upgrade : Input := { incoming := { bytes := [71] }, upgrade := .establish [2] }
    let acts : List LoopAct :=
      [.accept [0] 0, .event 0 { readable := some upgrade } 0,
        .timers (fun _ => [3]) { now := 2000000000 }]
    ∃ n : Timers,
      (run (loopStep (.sample false)) (.start 1 1) acts).wheel.Tracks n ∧
        ∃ t, n 0 .liveness = some ⟨t, false⟩ := by
  intro upgrade acts
  have hmonitored : Along (loopStep (.sample false)) (Loop.Monitored (.sample false)) (.start 1 1)
      acts := ⟨trivial, fun _ input hinput => (by cases hinput), trivial, trivial⟩
  have hsession : ((run (loopStep (.sample false)) (.start 1 1) acts).worker.conns.hget 0).map
      (·.session) = some true := by decide +kernel
  obtain ⟨e, hkey, hsession⟩ := Option.map_eq_some_iff.mp hsession
  obtain ⟨n, htracks, hall⟩ :=
    (connections_deadlined (.sample false) rfl (by decide) 1 1 acts hmonitored).1
  have hlive := hall 0 e hkey
  rw [if_pos hsession] at hlive
  exact ⟨n, htracks, hlive.2⟩

/-- A TLS connection whose first flight blocks: its idle timer fires before it has a
session and is dropped, then the writable path establishes the session. It is under
no deadline at all, and is still there when the clock has gone on for years. -/
theorem session_without_deadline :
    let flight : Input :=
      { incoming := { writes := [.wouldBlock] }, site := { socket := { first := .blocked } } }
    let upgrade : Input :=
      { incoming := { bytes := [71], writes := [.wrote] }, upgrade := .establish [2] }
    let l := run (loopStep (.sample true)) (.start 1 1)
      [.accept [0] 0, .event 0 { readable := some flight } 0,
        .timers (fun _ => [3]) { now := 2000000000 },
        .event 0 { writable := some upgrade } 3000000000]
    (l.worker.conns.hget 0).map (·.session) = some true ∧
      l.wheel.live.hget 0 = none ∧ l.wheel.handshake.hget 0 = none ∧
      ((loopStep (.sample true) l (.timers (fun _ => [3]) { now := 10 ^ 18 })).worker.conns.hget
        0).isSome = true := by
  decide +kernel

end Pylon.Transport
