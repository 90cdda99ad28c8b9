import Pylon.App.Cache
import Pylon.Lib.Generation
import Pylon.Transport.Parking

/-!
# Parked lookups and recycled tokens

An app that is not cached is looked up off the worker. The connection is parked, and the
result comes back with its token and the generation of the park; by then the connection
may be gone, and the token another's.

A `Lot` is a worker's loop with a record of the lookups; a result may arrive whenever and
however often. As a `Lobby` it has the rules that say to whom one can be applied.
-/

namespace Pylon.Transport

open Pylon.Lib Pylon.Redis Pylon.App

/-! ## The loop and its lookups -/

/-- `env` is what `finish_establish` works on: the counters of the node, of the apps and of
the cluster, and the registry of connections. The rest are records: how many connections a
token has had, the lookups spawned, and the results applied, each with the connection it
was applied to. -/
structure Lot (Env : Type) where
  loop : Loop
  env : Env
  guest : Nat → Nat := fun _ => 0
  lookups : List (Errand Nat 64) := []
  applied : List (Errand Nat 64 × Nat) := []

/-- The outcome of a lookup; `none` is an error of the app store. `encode` is the codec the
connection was parked with. -/
def lookupOutcome {Env App : Type} (finish : Env → App → Env × Except Reject Bytes)
    (encode : Nat → String → Bytes) (env : Env) :
    Option (AppLookup App) → Env × Except Reject Bytes
  | some (.found app) => finish env app
  | some .disabled => (env, .error (reject 4003 "Application disabled"))
  | some .notFound => (env, .error (reject 4001 "Could not find app by key"))
  | none => (env, .error (reject 4103 "application store temporarily unavailable"))
where
  reject (code : Nat) (message : String) : Reject := ⟨encode code message, code, message⟩

namespace Lot

variable {Env App : Type} (cfg : LoopConfig) (finish : Env → App → Env × Except Reject Bytes)

def start (activityTimeoutSecs pongTimeoutSecs : Nat) (env : Env) : Lot Env :=
  { loop := .start activityTimeoutSecs pongTimeoutSecs, env }

def accept (now : Nat) (s : Lot Env) (key : Nat) : Lot Env :=
  { s with
    loop := s.loop.accept cfg now key
    guest :=
      if s.loop.worker.conns.hexists key then s.guest
      else Function.update s.guest key (s.guest key + 1) }

/-- A handler's run on the connection under `key`, which may have spawned a lookup. -/
def turn (s : Lot Env) (loop : Loop) (key : Nat) (parked : Bool) : Lot Env :=
  { s with
    loop
    lookups :=
      if parked then s.lookups ++ [⟨key, s.loop.worker.nextGen, s.guest key⟩] else s.lookups }

def readable (s : Lot Env) (key : Nat) (input : Input) (now : Nat) : Lot Env :=
  s.turn (s.loop.readable cfg key input now) key (s.loop.readableParks cfg key input now)

def writable (s : Lot Env) (key : Nat) (input : Input) (now : Nat) : Lot Env :=
  s.turn (s.loop.writable cfg key input now) key (s.loop.writableParks cfg key input now)

def readableEvent (s : Lot Env) (key : Nat) (ready : Worker.Readiness) (now : Nat) : Lot Env :=
  match ready.readable with
  | some input => s.readable cfg key input now
  | none => s

def handleEvent (s : Lot Env) (key : Nat) (ready : Worker.Readiness) (now : Nat) : Lot Env :=
  if ¬ s.loop.worker.conns.hexists key then s
  else if ready.hangup then { s with loop := s.loop.remove key }
  else
    let s := s.readableEvent cfg key ready now
    match ready.writable with
    | some input => s.writable cfg key input now
    | none => s

/-- One result taken from the channel. The establish is finished behind the guard. -/
def drainResolved (s : Lot Env) (q : Errand Nat 64) (result : Option (AppLookup App))
    (encode : Nat → String → Bytes) (pass : Pass) : Lot Env :=
  match s.loop.worker.conns.hget q.slot with
  | none => s
  | some e =>
    if e.pendingEstablish ≠ some q.gen then s
    else
      let (env, outcome) := lookupOutcome finish encode s.env result
      { s with
        loop := s.loop.drainResolved cfg q.slot q.gen outcome pass
        env
        applied := s.applied ++ [(q, s.guest q.slot)] }

end Lot

/-- `share` is whatever else is done to what `finish_establish` works on. -/
inductive LotAct (Env App : Type) where
  | work (a : LoopAct)
  | share (env : Env)
  | resolve (i : Nat) (result : Option (AppLookup App)) (encode : Nat → String → Bytes)
      (pass : Pass)

def lotStep {Env App : Type} (cfg : LoopConfig)
    (finish : Env → App → Env × Except Reject Bytes) (s : Lot Env) (a : LotAct Env App) :
    Lot Env :=
  match a with
  | .share env => { s with env }
  | .resolve i result encode pass =>
    if s.loop.worker.stopped then s
    else
      match s.lookups[i]? with
      | none => s
      | some q => s.drainResolved cfg finish q result encode pass
  | .work a =>
    if s.loop.worker.stopped then s
    else
      match a with
      | .accept keys now =>
        if s.loop.worker.drainStarted then s else keys.foldl (Lot.accept cfg now) s
      | .event key ready now => s.handleEvent cfg key ready now
      -- no result but a lookup's
      | .resolved _ _ _ _ => s
      | .shutdown text expired pass => { s with loop := s.loop.shutdown text expired pass }
      | .broadcasts budget msgs pass => { s with loop := s.loop.drainBroadcasts budget msgs pass }
      | .dirty keys mail pass => { s with loop := s.loop.drainDirtySessions keys mail pass }
      | .timers text pass => { s with loop := s.loop.timers cfg text pass }

section Loops

variable {Env App : Type} {cfg : LoopConfig} {finish : Env → App → Env × Except Reject Bytes}

namespace Lot

end Lot

end Loops

/-! ## The lobby -/

/-- Where a slot is, as a guest's stage. -/
def slotStage : ConnState × Bool × Option (BitVec 64) → GuestStage 64
  | (.handshaking, _, _) => .fresh
  | (.opened, _, some gen) => .waiting gen
  | (.opened, true, none) => .settled
  | (.opened, false, none) => .idle

namespace Lot

variable {Env App : Type}

def lobby (s : Lot Env) : Lobby Nat 64 where
  stage key := (s.loop.standing key).map slotStage
  guest := s.guest
  next := s.loop.worker.nextGen
  errands := s.lookups
  answered := s.applied

variable {s : Lot Env} {l' : Loop} {key : Nat}

theorem stage_elsewhere (h : s.loop.Elsewhere l' key) {stage : Option (GuestStage 64)}
    (hafter : (l'.standing key).map slotStage = stage) :
    (fun k => (l'.standing k).map slotStage) = Function.update s.lobby.stage key stage := by
  funext k
  by_cases hk : k = key
  · rw [hk, Function.update_self]
    exact hafter
  · rw [Function.update_of_ne hk]
    exact congrArg _ (h k hk).1

theorem lobby_loop (h : l'.worker.nextGen = s.loop.worker.nextGen) :
    ({ s with loop := l' } : Lot Env).lobby =
      { s.lobby with stage := fun k => (l'.standing k).map slotStage } := by
  rw [lobby, h]
  rfl

theorem moves_keeps (h : s.loop.Keeps l') :
    s.lobby.Moves ({ s with loop := l' } : Lot Env).lobby := by
  rw [lobby_loop h.nextGen]
  refine .single (.depart fun k => ?_)
  rcases h.slot k with ⟨hsame, -⟩ | ⟨hgone, -⟩
  · exact .inl (congrArg _ hsame)
  · exact .inr (congrArg _ hgone)

theorem moves_turn {parked : Bool} (h : s.loop.Turn l' key parked) :
    s.lobby.Moves (s.turn l' key parked).lobby := by
  have hfresh (hbefore : s.loop.standing key = some (.handshaking, false, none)) :
      s.lobby.stage key = some .fresh := congrArg (Option.map slotStage) hbefore
  have hspawned (hnext : l'.worker.nextGen = s.loop.worker.nextGen + 1) :
      (s.turn l' key true).lobby =
        { s.lobby with
          stage := fun k => (l'.standing k).map slotStage
          next := s.lobby.next + 1
          errands := s.lobby.errands ++ [⟨key, s.lobby.next, s.lobby.guest key⟩] } := by
    rw [lobby, turn, hnext]
    rfl
  cases h with
  | keeps hkeeps => exact moves_keeps hkeeps
  | opens session before after _ others nextGen =>
    have hlobby : (s.turn l' key false).lobby = _ := lobby_loop nextGen
    rw [hlobby, stage_elsewhere others (congrArg (Option.map slotStage) after)]
    refine .single (.pass key (hfresh before) _ fun gen => ?_)
    cases session <;> exact fun h => by cases h
  | parks before after others nextGen =>
    rw [hspawned nextGen, stage_elsewhere others (congrArg (Option.map slotStage) after)]
    exact .single (.send key (hfresh before))
  | flees before after _ others nextGen =>
    rw [hspawned nextGen, stage_elsewhere others (congrArg (Option.map slotStage) after)]
    have hgone := (Lobby.Step.send key (hfresh before)).leave key
    rw [Function.update_idem] at hgone
    exact hgone

theorem moves_accept (cfg : LoopConfig) (now : Nat) (s : Lot Env) (key : Nat) :
    s.lobby.Moves (s.accept cfg now key).lobby := by
  by_cases htaken : s.loop.worker.conns.hexists key
  · have hsame : s.accept cfg now key = s := by
      rw [accept, Loop.accept_taken htaken, if_pos htaken]
    rw [hsame]
    exact .refl
  · have harrives : s.loop.Arrives (s.loop.accept cfg now key) key := Loop.arrives_accept htaken
    have hstage := stage_elsewhere harrives.others (congrArg (Option.map slotStage) harrives.after)
    have hlobby : (s.accept cfg now key).lobby =
        { s.lobby with
          stage := fun k => ((s.loop.accept cfg now key).standing k).map slotStage
          guest := Function.update s.lobby.guest key (s.lobby.guest key + 1) } := by
      rw [lobby, accept, harrives.nextGen, if_neg htaken]
      rfl
    rw [hlobby, hstage]
    exact .single (.arrive key (congrArg (Option.map slotStage) harrives.before))

variable {q : Errand Nat 64}

/-- An outcome is applied to the guest that waits under its generation. -/
theorem moves_ends (h : s.loop.Ends l' q.slot q.gen) (hq : q ∈ s.lookups) (env : Env) :
    s.lobby.Moves ({ s with
      loop := l'
      env
      applied := s.applied ++ [(q, s.guest q.slot)] } : Lot Env).lobby := by
  have hwaits : s.lobby.stage q.slot = some (.waiting q.gen) :=
    congrArg (Option.map slotStage) h.before
  have hlobby : ({ s with
        loop := l'
        env
        applied := s.applied ++ [(q, s.guest q.slot)] } : Lot Env).lobby =
      { s.lobby with
        stage := fun k => (l'.standing k).map slotStage
        answered := s.lobby.answered ++ [(q, s.lobby.guest q.slot)] } := by
    rw [lobby, h.nextGen]
    rfl
  rw [hlobby]
  rcases h.after with hlive | hgone
  · rw [stage_elsewhere h.others (congrArg (Option.map slotStage) hlive)]
    exact .single (.answer q hq hwaits)
  · rw [stage_elsewhere h.others (congrArg (Option.map slotStage) hgone)]
    have hleft := (Lobby.Step.answer q hq hwaits).leave q.slot
    rw [Function.update_idem] at hleft
    exact hleft

/-! ## Runs -/

/-- Every slot is in its place, and the lobby has come about by its rules. -/
structure Sound (s : Lot Env) : Prop where
  poised : s.loop.Poised
  moves : Lobby.empty.Moves s.lobby

theorem Sound.start (activityTimeoutSecs pongTimeoutSecs : Nat) (env : Env) :
    (Lot.start activityTimeoutSecs pongTimeoutSecs env).Sound :=
  ⟨fun _ => .vacant, .refl⟩

theorem Sound.keeps (h : s.Sound) (hkeeps : s.loop.Keeps l') :
    ({ s with loop := l' } : Lot Env).Sound :=
  ⟨h.poised.keeps hkeeps, h.moves.trans (moves_keeps hkeeps)⟩

theorem Sound.turn (h : s.Sound) {parked : Bool} (hturn : s.loop.Turn l' key parked) :
    (s.turn l' key parked).Sound :=
  ⟨hturn.poised h.poised, h.moves.trans (moves_turn hturn)⟩

theorem Sound.accept (h : s.Sound) (cfg : LoopConfig) (now key : Nat) :
    (s.accept cfg now key).Sound := by
  refine ⟨?_, h.moves.trans (moves_accept cfg now s key)⟩
  by_cases htaken : s.loop.worker.conns.hexists key
  · rw [Lot.accept, Loop.accept_taken htaken]
    exact h.poised
  · exact (Loop.arrives_accept htaken).poised h.poised

theorem Sound.handleEvent (h : s.Sound) (cfg : LoopConfig) (key : Nat) (ready : Worker.Readiness)
    (now : Nat) : (s.handleEvent cfg key ready now).Sound := by
  unfold Lot.handleEvent
  split
  · exact h
  · split
    · exact h.keeps (Loop.keeps_remove s.loop key)
    · have hreadable : (s.readableEvent cfg key ready now).Sound := by
        unfold Lot.readableEvent
        cases ready.readable with
        | none => exact h
        | some input => exact h.turn (Loop.turn_readable h.poised input)
      cases ready.writable with
      | none => exact hreadable
      | some input => exact hreadable.turn (Loop.turn_writable hreadable.poised input)

variable {cfg : LoopConfig} {finish : Env → App → Env × Except Reject Bytes}

theorem drainResolved_of_pending (h : s.loop.pending q.slot = some q.gen)
    (result : Option (AppLookup App)) (encode : Nat → String → Bytes) (pass : Pass) :
    s.drainResolved cfg finish q result encode pass =
      { s with
        loop := s.loop.drainResolved cfg q.slot q.gen (lookupOutcome finish encode s.env result).2
          pass
        env := (lookupOutcome finish encode s.env result).1
        applied := s.applied ++ [(q, s.guest q.slot)] } := by
  obtain ⟨e, hkey, hpending⟩ := Option.bind_eq_some_iff.mp h
  rw [drainResolved, hkey]
  exact if_neg (not_not.mpr hpending)

theorem drainResolved_of_ne (h : s.loop.pending q.slot ≠ some q.gen)
    (result : Option (AppLookup App)) (encode : Nat → String → Bytes) (pass : Pass) :
    s.drainResolved cfg finish q result encode pass = s := by
  unfold drainResolved
  cases hkey : s.loop.worker.conns.hget q.slot with
  | none => rfl
  | some =>
    rw [Loop.pending, hkey] at h
    exact if_pos h

theorem Sound.drainResolved (h : s.Sound) (hq : q ∈ s.lookups) (result : Option (AppLookup App))
    (encode : Nat → String → Bytes) (pass : Pass) :
    (s.drainResolved cfg finish q result encode pass).Sound := by
  by_cases hpending : s.loop.pending q.slot = some q.gen
  · have hends (outcome : Except Reject Bytes) :
        s.loop.Ends (s.loop.drainResolved cfg q.slot q.gen outcome pass) q.slot q.gen :=
      Loop.ends_drainResolved h.poised hpending outcome pass
    rw [drainResolved_of_pending hpending]
    exact ⟨(hends _).poised h.poised, h.moves.trans (moves_ends (hends _) hq _)⟩
  · rw [drainResolved_of_ne hpending]
    exact h

theorem Sound.step (h : s.Sound) (a : LotAct Env App) : (lotStep cfg finish s a).Sound := by
  cases a with
  | share => exact ⟨h.poised, h.moves⟩
  | resolve i result encode pass =>
    rw [lotStep]
    split
    · exact h
    · cases hq : s.lookups[i]? with
      | none => exact h
      | some => exact h.drainResolved (List.mem_of_getElem? hq) result encode pass
  | work a =>
    unfold lotStep
    dsimp only
    split
    · exact h
    · cases a with
      | accept keys now =>
        dsimp only
        split
        · exact h
        · exact run_invariant (fun (s : Lot Env) key (h : s.Sound) => h.accept cfg now key) h keys
      | event key ready now => exact h.handleEvent cfg key ready now
      | resolved => exact h
      | shutdown text expired pass => exact h.keeps (s.loop.keeps_shutdown text expired pass)
      | broadcasts budget msgs pass => exact h.keeps (s.loop.keeps_drainBroadcasts budget msgs pass)
      | dirty _ mail pass => exact h.keeps (.foldl (Loop.keeps_drainDirty mail pass) _ _)
      | timers text pass => exact h.keeps (s.loop.keeps_timers cfg text pass)

/-- The guard asks for the stage of the slot. -/
theorem Sound.pending_iff (h : s.Sound) {gen : BitVec 64} :
    s.loop.pending key = some gen ↔ s.lobby.stage key = some (.waiting gen) := by
  constructor
  · intro hpending
    obtain ⟨e, hkey, hgen⟩ := Option.bind_eq_some_iff.mp hpending
    show (s.loop.standing key).map slotStage = _
    rw [Loop.standing_of_hget hkey, (h.poised.parked hkey hgen).1, hgen]
    rfl
  · intro hstage
    obtain ⟨standing, hstanding, hwaits⟩ := Option.map_eq_some_iff.mp hstage
    obtain ⟨e, hkey, rfl⟩ := Option.map_eq_some_iff.mp hstanding
    rw [Loop.pending, hkey]
    show e.pendingEstablish = some gen
    unfold slotStage at hwaits
    split at hwaits <;> cases hwaits
    rename_i hstanding
    exact congrArg (·.2.2) hstanding

theorem Sound.lobby (h : s.Sound) (hfew : s.lookups.length < 2 ^ 64) : s.lobby.Sound :=
  Lobby.Sound.empty.moves h.moves hfew.le

/-- Whoever is settled has a session and nothing on the wheel to end it early. -/
theorem Sound.settled (h : s.Sound) {e : WorkerEntry} (hkey : s.loop.worker.conns.hget key = some e)
    (hstage : s.lobby.stage key = some .settled) :
    e.session = true ∧ e.pendingEstablish = none ∧ s.loop.armed key = none := by
  have hplace := h.poised key
  have hslot : slotStage (e.state, e.session, e.pendingEstablish) = .settled := by
    have hmap : (s.loop.standing key).map slotStage = some .settled := hstage
    rw [Loop.standing_of_hget hkey] at hmap
    exact Option.some.inj hmap
  rw [Loop.standing_of_hget hkey] at hplace
  generalize e.state = state, e.session = session, e.pendingEstablish = pending,
    s.loop.armed key = deadline at hplace hslot ⊢
  cases hplace with
  | handshaking | parked | bare => cases hslot
  | live => exact ⟨rfl, rfl, rfl⟩

/-- The connection that spawned the lookup is gone, or has had the result. -/
def Stale (s : Lot Env) (q : Errand Nat 64) : Prop :=
  s.loop.worker.conns.hget q.slot = none ∨ s.guest q.slot ≠ q.guest ∨
    q ∈ s.applied.map Prod.fst

theorem Sound.stale_iff (h : s.Sound) (hfew : s.lookups.length < 2 ^ 64) (hq : q ∈ s.lookups) :
    s.Stale q ↔ s.loop.pending q.slot ≠ some q.gen := by
  have hvacant : s.lobby.stage q.slot = none ↔ s.loop.worker.conns.hget q.slot = none :=
    Option.map_eq_none_iff.trans Option.map_eq_none_iff
  have hguest : s.lobby.guest q.slot = s.guest q.slot := rfl
  have hanswered : s.lobby.answered = s.applied := rfl
  rw [Ne, h.pending_iff, (h.lobby hfew).waiting_iff hfew.le hq, Stale, Ne, Ne, hvacant, hguest,
    hanswered]
  tauto

end Lot

/-- In every run with fewer lookups than there are generations: a result is applied to the
connection that spawned its lookup, at most once. If that connection is gone or has had
the result, the result changes nothing; otherwise it is applied. A connection that was
given a result and is still there has a session, is not parked and has no handshake
deadline, and a token nobody has has none either. -/
theorem park_guard {Env App : Type} (cfg : LoopConfig)
    (finish : Env → App → Env × Except Reject Bytes) (activityTimeoutSecs pongTimeoutSecs : Nat)
    (env : Env) (as : List (LotAct Env App))
    (hfew : (run (lotStep cfg finish) (.start activityTimeoutSecs pongTimeoutSecs env)
      as).lookups.length < 2 ^ 64) :
    let s := run (lotStep cfg finish) (.start activityTimeoutSecs pongTimeoutSecs env) as
    (∀ p ∈ s.applied, p.1 ∈ s.lookups ∧ p.2 = p.1.guest) ∧ (s.applied.map Prod.fst).Nodup ∧
      (∀ (i : Nat) (q : Errand Nat 64) (result : Option (AppLookup App))
        (encode : Nat → String → Bytes) (pass : Pass), s.lookups[i]? = some q →
        (s.Stale q → lotStep cfg finish s (.resolve i result encode pass) = s) ∧
        (¬ s.Stale q → s.loop.worker.stopped = false →
          (lotStep cfg finish s (.resolve i result encode pass)).applied =
            s.applied ++ [(q, q.guest)])) ∧
      (∀ q ∈ s.applied.map Prod.fst, s.guest q.slot = q.guest →
        ∀ e, s.loop.worker.conns.hget q.slot = some e →
          e.session = true ∧ e.pendingEstablish = none ∧ s.loop.armed q.slot = none) ∧
      ∀ key, s.loop.worker.conns.hget key = none → s.loop.armed key = none := by
  intro s
  have hsound : s.Sound :=
    run_invariant (fun (s : Lot Env) a (h : s.Sound) => h.step a) (.start _ _ env) as
  have hlobby := hsound.lobby hfew
  refine ⟨hlobby.addressed, hlobby.once, ?_, ?_, ?_⟩
  · intro i q result encode pass hi
    have hq : q ∈ s.lookups := List.mem_of_getElem? hi
    have hstep : lotStep cfg finish s (.resolve i result encode pass) =
        if s.loop.worker.stopped then s else s.drainResolved cfg finish q result encode pass := by
      rw [lotStep, hi]
    rw [hsound.stale_iff hfew hq, hstep]
    refine ⟨fun hstale => ?_, fun hwaits hrun => ?_⟩
    · rw [Lot.drainResolved_of_ne hstale, ite_self]
    · have hpending := not_not.mp hwaits
      have hguest : s.guest q.slot = q.guest :=
        ((hlobby.waiting_iff hfew.le hq).mp (hsound.pending_iff.mp hpending)).2.1
      rw [hrun, if_neg Bool.false_ne_true, Lot.drainResolved_of_pending hpending, hguest]
  · intro q hq hguest e hkey
    obtain ⟨p, hp, rfl⟩ := List.mem_map.mp hq
    have hstage : s.lobby.stage p.1.slot = some (slotStage e.standing) := by
      show (s.loop.standing p.1.slot).map slotStage = _
      rw [Loop.standing_of_hget hkey]
      rfl
    have hsettled := hlobby.stays p.1 (hlobby.addressed p hp).1 hguest _ hstage
    exact hsound.settled hkey (hstage.trans (congrArg some (hsettled.trans (if_pos hq))))
  · intro key hkey
    have hplace := hsound.poised key
    rw [Loop.standing, hkey] at hplace
    generalize s.loop.armed key = deadline at hplace ⊢
    cases hplace
    rfl

/-- A parked connection hangs up, another takes its token and parks in turn, and both
results come back. -/
def Lot.recycled : List (LotAct Nat Unit) :=
  let upgrade : Input := { incoming := { bytes := [71] }, upgrade := .park }
  [.work (.accept [0] 0), .work (.event 0 { readable := some upgrade } 0),
    .work (.event 0 { hangup := true } 1), .work (.accept [0] 1),
    .work (.event 0 { readable := some upgrade } 1),
    .resolve 0 (some (.found ())) (fun _ _ => []) { now := 2 },
    .resolve 1 (some (.found ())) (fun _ _ => []) { now := 3 }]

/-- `finish_establish` that counts the sessions. -/
def Lot.count (n : Nat) (_ : Unit) : Nat × Except Reject Bytes := (n + 1, .ok [2])

theorem Lot.recycled_facts :
    (run (lotStep (.sample false) count) (.start 120 30 0) recycled).env = 1 ∧
      (run (lotStep (.sample false) count) (.start 120 30 0) recycled).lookups =
        [⟨0, 0, 1⟩, ⟨0, 1, 2⟩] ∧
      (run (lotStep (.sample false) count) (.start 120 30 0) recycled).applied =
        [(⟨0, 1, 2⟩, 2)] ∧
      (run (lotStep (.sample false) count) (.start 120 30 0) recycled).guest 0 = 2 := by
  decide +kernel

/-- The first result is dropped, the second one is applied, to the second connection. -/
theorem park_guard_recycled :
    (run (lotStep (.sample false) Lot.count) (.start 120 30 0) Lot.recycled).applied =
        [(⟨0, 1, 2⟩, 2)] ∧
      ∀ e, (run (lotStep (.sample false) Lot.count) (.start 120 30 0)
          Lot.recycled).loop.worker.conns.hget 0 = some e →
        e.session = true ∧ e.pendingEstablish = none ∧
          (run (lotStep (.sample false) Lot.count) (.start 120 30 0)
            Lot.recycled).loop.armed 0 = none := by
  obtain ⟨-, hlookups, happlied, hguest⟩ := Lot.recycled_facts
  have hguard := park_guard (.sample false) Lot.count 120 30 0 Lot.recycled
  generalize run (lotStep (.sample false) Lot.count) (.start 120 30 0) Lot.recycled = s at *
  obtain ⟨-, -, -, hserved, -⟩ := hguard (by rw [hlookups]; decide)
  refine ⟨happlied, hserved ⟨0, 1, 2⟩ ?_ hguest⟩
  rw [happlied]
  exact List.mem_cons_self

end Pylon.Transport
