import Pylon.Transport.Establish

/-!
# The node's connection ceiling

`finish_establish` takes a unit of `node_conns` before it looks at anything
else, and gives it back on each of its four refusals; a session keeps it until
its `remove`. Parks, rejected lookups and reaped handshakes never hold one.

`node_conns` is always the sum of `held`. It may pass the ceiling for a moment,
by the establishes that found it full; the sum of `counted` never does.
-/

namespace Pylon.Transport

open Pylon.Lib

variable {App : Type} [DecidableEq App]

/-- The `remove` of a session, up to its `node_conns.fetch_sub`. -/
def Phase.tearing : Phase App → Nat
  | .discounting _ | .sweeping _ | .leaving => 1
  | .taking .. | .gating .. | .looking .. | .counting .. | .asking .. | .undoing .. | .refusing ..
  | .purging _ => 0

/-- An establish that holds a unit of `node_conns`. -/
def Phase.holding : Phase App → Nat
  | .gating .. | .looking .. | .counting .. | .asking .. | .undoing .. | .refusing .. => 1
  | .taking .. | .discounting _ | .sweeping _ | .leaving | .purging _ => 0

namespace Gate

/-- The sessions in the slabs. -/
def sessions (s : Gate App) : Nat := s.slab.tally fun entry => entry.session.elim 0 fun _ => 1

/-- The live sessions: a session lives until its `remove` has given its unit back. -/
def live (s : Gate App) : Nat := s.sessions + s.busy.tally Phase.tearing

/-- The establishes that hold a unit. -/
def attempts (s : Gate App) : Nat := s.busy.tally Phase.holding

end Gate

/-- An establish that holds a unit because it passed the ceiling. -/
def Phase.passed : Phase App → Nat
  | .refusing _ .ceiling => 0
  | phase => phase.holding

/-- Everybody with a unit. -/
def held : Scale App where
  session _ := 1
  phase p := p.tearing + p.holding
  taking _ _ := rfl
  purging _ := rfl
  asking _ _ := rfl
  discounting _ := rfl

/-- Everybody with a unit, but for those the ceiling has refused. -/
def counted : Scale App where
  session _ := 1
  phase p := p.tearing + p.passed
  taking _ _ := rfl
  purging _ := rfl
  asking _ _ := rfl
  discounting _ := rfl

omit [DecidableEq App] in
theorem Phase.passed_le (p : Phase App) : p.passed ≤ p.holding := by
  cases p with
  | refusing _ refusal => cases refusal <;> simp [Phase.passed, Phase.holding]
  | _ => exact le_rfl

namespace Gate

variable {cfg : GateConfig App} {s : Gate App}

section

omit [DecidableEq App]

theorem sum_held : s.sum held = s.live + s.attempts := by
  have hphases := Hash.tally_add Phase.tearing s.busy Phase.holding
  show s.sessions + s.busy.tally (fun p => p.tearing + p.holding) = s.live + s.attempts
  rw [hphases, live, attempts, add_assoc]

theorem live_le_counted : s.live ≤ s.sum counted := by
  have hle : s.busy.tally Phase.tearing ≤ s.busy.tally (fun p => p.tearing + p.passed) :=
    Hash.tally_le_tally s.busy fun p => Nat.le_add_right _ _
  exact Nat.add_le_add_left hle s.sessions

theorem counted_le_held : s.sum counted ≤ s.sum held := by
  apply Nat.add_le_add_left
  apply Hash.tally_le_tally
  intro p
  exact Nat.add_le_add_left p.passed_le _

end

/-- The invariant: `node_conns` is the sum of the units, and those that passed
the ceiling are within it. -/
structure NodeLaw (cfg : GateConfig App) (s : Gate App) : Prop where
  sum : s.nodeConns = s.sum held
  bound : cfg.maxConnections ≠ 0 → s.sum counted ≤ cfg.maxConnections

section Law

variable {s' : Gate App} {thread : Nat} {old new : Phase App}

section

omit [DecidableEq App]

theorem NodeLaw.same (h : NodeLaw cfg s) (hnode : s'.nodeConns = s.nodeConns)
    (hsum : ∀ w : Scale App, s'.sum w = s.sum w) : NodeLaw cfg s' := by
  refine ⟨?_, fun hmax => ?_⟩
  · rw [hnode, hsum, h.sum]
  · rw [hsum]
    exact h.bound hmax

theorem NodeLaw.turn (h : NodeLaw cfg s) (hnode : s'.nodeConns = s.nodeConns)
    (hslab : s'.slab = s.slab) (hbusy : s'.busy = s.busy.hset thread new)
    (hold : s.busy.hget thread = some old) (hheld : held.phase new = held.phase old)
    (hcounted : counted.phase new ≤ counted.phase old) : NodeLaw cfg s' := by
  have hsum := sum_turn held hslab hbusy hold
  have hpassed := sum_turn counted hslab hbusy hold
  refine ⟨?_, fun hmax => ?_⟩
  · rw [hnode, h.sum]
    omega
  · have hbound := h.bound hmax
    omega

theorem NodeLaw.giveBack (h : NodeLaw cfg s) (hnode : s'.nodeConns = s.nodeConns - 1)
    (hslab : ∀ w : Scale App, s'.slab.tally w.entry = s.slab.tally w.entry)
    (hbusy : s'.busy = s.busy.hdel thread) (hold : s.busy.hget thread = some old)
    (hheld : held.phase old = 1) : NodeLaw cfg s' := by
  have hsum := sum_rest held (hslab held) hbusy hold
  have hpassed := sum_rest counted (hslab counted) hbusy hold
  refine ⟨?_, fun hmax => ?_⟩
  · rw [hnode, h.sum]
    omega
  · have hbound := h.bound hmax
    omega

end

end Law

/-- The ceiling: what `node_conns` was before the unit was taken decides. -/
theorem NodeLaw.take (h : NodeLaw cfg s) {thread token : Nat} {app : App} (saturated : Bool)
    (verdict : Option Bool) (hphase : s.busy.hget thread = some (.taking token app)) :
    NodeLaw cfg (s.advance cfg thread saturated verdict (.taking token app)) := by
  have hle : s.sum counted ≤ s.sum held := counted_le_held
  have hnode := h.sum
  have hsum : ∀ (p : Phase App) (w : Scale App),
      ({ s with nodeConns := s.nodeConns + 1 }.turn thread p).sum w = s.sum w + w.phase p := by
    intro p w
    have hturn : ({ s with nodeConns := s.nodeConns + 1 }.turn thread p).sum w +
        w.phase (.taking token app) = s.sum w + w.phase p := sum_turn w rfl rfl hphase
    rwa [w.taking] at hturn
  have htaken : ∀ p : Phase App, held.phase p = 1 →
      ({ s with nodeConns := s.nodeConns + 1 }.turn thread p).nodeConns =
        ({ s with nodeConns := s.nodeConns + 1 }.turn thread p).sum held := by
    intro p hp
    rw [hsum, hp, Nat.cast_add, ← hnode]
    rfl
  simp only [Gate.advance]
  split
  next hfull =>
    -- the establish holds its unit for a moment, but is not counted
    refine ⟨htaken _ rfl, fun hmax => ?_⟩
    rw [hsum]
    exact h.bound hmax
  next hroom =>
    refine ⟨htaken _ rfl, fun hmax => ?_⟩
    have hlt : s.nodeConns < cfg.maxConnections := by
      by_contra hge
      exact hroom ⟨hmax, not_lt.mp hge⟩
    have hone : counted.phase (.gating token app) = 1 := rfl
    rw [hsum, hone]
    omega

/-- An establish over the ceiling holds a unit for a moment, and gives it back. -/
theorem NodeLaw.advance (h : NodeLaw cfg s) (hseated : s.Seated) {thread : Nat} {phase : Phase App}
    (saturated : Bool) (verdict : Option Bool) (hphase : s.busy.hget thread = some phase) :
    NodeLaw cfg (s.advance cfg thread saturated verdict phase) := by
  cases phase with
  | taking => exact h.take saturated verdict hphase
  | gating | counting =>
    simp only [Gate.advance]
    split <;> exact h.turn rfl rfl rfl hphase rfl le_rfl
  | looking _ app =>
    have hbusy : ∀ p, ((s.lookup app).1.turn thread p).busy = s.busy.hset thread p := by
      intro p
      rw [busy_turn, busy_lookup]
    refine h.turn ?_ (slab_lookup app) (hbusy _) hphase rfl le_rfl
    show (s.lookup app).1.nodeConns = s.nodeConns
    unfold lookup
    split <;> rfl
  | asking _ ticket =>
    simp only [Gate.advance]
    split
    · exact h.turn rfl rfl rfl hphase rfl le_rfl
    · refine h.same ?_ fun w => hseated.sum_seat w hphase
      rw [hseated.seat_slab ticket hphase rfl]
      rfl
  | undoing token _ refusal =>
    refine h.turn rfl rfl rfl hphase rfl ?_
    exact Nat.add_le_add_left (Phase.passed_le (.refusing token refusal)) 0
  | refusing token =>
    refine h.giveBack rfl (fun w => ?_) rfl hphase rfl
    exact tally_slab_hdel w
      (weight_of_session_none w (hseated.attempt thread _ token hphase rfl) rfl)
  | discounting => exact h.turn rfl rfl rfl hphase rfl le_rfl
  | sweeping app =>
    have hbusy : ((s.removeIf app).turn thread .leaving).busy = s.busy.hset thread .leaving := by
      rw [busy_turn, busy_removeIf]
    refine h.turn ?_ (slab_removeIf app) hbusy hphase rfl le_rfl
    show (s.removeIf app).nodeConns = s.nodeConns
    unfold removeIf
    split
    · split <;> rfl
    · rfl
  | leaving => exact h.giveBack rfl (fun _ => rfl) rfl hphase rfl
  | purging app =>
    refine h.same rfl fun w => ?_
    have hsum : (s.advance cfg thread saturated verdict (.purging app)).sum w +
        w.phase (.purging app) = s.sum w := sum_rest w rfl rfl hphase
    rwa [w.purging] at hsum

theorem NodeLaw.step (h : NodeLaw cfg s) (hseated : s.Seated) (a : GateAct App) :
    NodeLaw cfg (gateStep cfg s a) := by
  by_cases ha : ∃ thread saturated verdict, a = .advance thread saturated verdict
  · obtain ⟨thread, saturated, verdict, rfl⟩ := ha
    simp only [gateStep]
    split
    next phase hphase => exact h.advance hseated saturated verdict hphase
    next => exact h
  · have hstart : ∀ thread saturated verdict, a ≠ .advance thread saturated verdict :=
      fun thread saturated verdict heq => ha ⟨thread, saturated, verdict, heq⟩
    exact h.same (tables_start hstart).1 fun w => hseated.sum_start w hstart

end Gate

/-- In every interleaving, on any number of workers, `node_conns` is the number
of live sessions and of establishes that hold a unit; the live sessions stay
within the ceiling; and when no thread is in the middle of anything,
`node_conns` is the number of sessions in the slabs. -/
theorem node_ceiling (cfg : GateConfig App) (as : List (GateAct App)) :
    let s := run (gateStep cfg) .empty as
    s.nodeConns = s.live + s.attempts ∧
      (cfg.maxConnections ≠ 0 → s.live ≤ cfg.maxConnections) ∧
      (s.busy = ∅ → s.nodeConns = s.sessions ∧ s.live = s.sessions) := by
  intro s
  have hlaw : s.Seated ∧ s.NodeLaw cfg := by
    refine @run_invariant _ _ _ (fun s : Gate App => s.Seated ∧ s.NodeLaw cfg) ?_ _ ?_ as
    · rintro s a ⟨hseated, hnode⟩
      exact ⟨hseated.step a, hnode.step hseated a⟩
    · exact ⟨.empty, rfl, fun _ => Nat.zero_le _⟩
  obtain ⟨-, hnode⟩ := hlaw
  have hsum : s.nodeConns = s.live + s.attempts := by
    rw [hnode.sum, Gate.sum_held, Nat.cast_add]
  refine ⟨hsum, fun hmax => ?_, fun hidle => ?_⟩
  · exact le_trans Gate.live_le_counted (hnode.bound hmax)
  · have hattempts : s.attempts = 0 := by
      rw [Gate.attempts, hidle, Hash.tally_empty]
    have hlive : s.live = s.sessions := by
      rw [Gate.live, hidle, Hash.tally_empty, add_zero]
    rw [hsum, hattempts, hlive]
    simp

end Pylon.Transport
