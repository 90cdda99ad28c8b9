import Pylon.Transport.Worker

/-!
# The saturation signal

`SaturationFlag` of `transport/fanout.rs` ORs one flag for all hand-off channels with one
bit a worker. A publisher that finds a channel full raises the flag, and every worker's
loop lowers it after it has drained its own channel; the bit of a worker is written by
that worker's checks alone.

One atomic access, `try_send` or receive is a step. The bit is exact, as long as no check
finds the budget switched off. The flag is not: a worker that has drained lowers it for a
channel that is still full. It holds as long as nobody is owed it when it is lowered.
-/

namespace Pylon.Transport

open Pylon.Lib

/-- Where a worker's loop is: at other work, taking its inbox, or done with it. -/
inductive LoopPhase where
  | working
  | draining
  | emptied
  | cleared
  deriving DecidableEq, Repr

/-- A worker's slot and the loop variables its checks read. -/
structure SlotState where
  queued : Nat := 0
  budgetSaturated : Bool := false
  inflightBytes : Nat := 0
  effectiveBudget : Nat := 0
  phase : LoopPhase := .working
  deriving DecidableEq, Repr

/-- Where a publisher is in `broadcast`: the workers to come, and after a full channel the
count and the flag first. -/
inductive Publisher (n : Nat) where
  | offering (rest : List (Fin n))
  | counting (worker : Fin n) (rest : List (Fin n))
  | flagging (worker : Fin n) (rest : List (Fin n))
  deriving DecidableEq, Repr

structure Signal (n : Nat) where
  inboxFull : Bool := false
  slots : Fin n → SlotState := fun _ => {}
  dropped : Fin n → Nat := fun _ => 0
  publishers : Hash Nat (Publisher n) := ∅
  owed : Finset (Fin n) := ∅
  overBudget : Finset (Fin n) := ∅

/-- What a publisher or a worker loop does next. The number of bytes in flight after a
delivery, a flush or any other work comes with the step, and so does the budget an
iteration reads. -/
inductive SignalAct (n : Nat) where
  | broadcast (publisher : Nat)
  | publish (publisher : Nat)
  | iterate (worker : Fin n) (effectiveBudget : Nat)
  | work (worker : Fin n) (inflightBytes : Nat)
  | receive (worker : Fin n)
  | deliver (worker : Fin n) (inflightBytes : Nat)
  | clear (worker : Fin n)
  | check (worker : Fin n)

namespace Signal

variable {n : Nat}

/-- `is_saturated`. -/
def isSaturated (s : Signal n) : Bool :=
  s.inboxFull || decide (∃ w, (s.slots w).budgetSaturated = true)

def setSlot (s : Signal n) (w : Fin n) (slot : SlotState) : Signal n :=
  { s with slots := Function.update s.slots w slot }

/-- `update_budget_pressure`. -/
def updateBudgetPressure (bit : Bool) (inflight budget : Nat) : Bool :=
  match shedBand inflight budget with
  | .saturated => true
  | .normal => false
  | _ => bit

/-- A check finds the worker's bytes at its budget, or below 80 percent of it. -/
def noteCheck (s : Signal n) (w : Fin n) : Signal n :=
  let slot := s.slots w
  if slot.effectiveBudget ≠ 0 ∧ slot.effectiveBudget ≤ slot.inflightBytes then
    { s with overBudget := insert w s.overBudget }
  else if slot.inflightBytes * 100 < slot.effectiveBudget * 80 then
    { s with overBudget := s.overBudget.erase w }
  else s

def publishStep (capacity : Nat) (s : Signal n) (publisher : Nat) : Publisher n → Signal n
  | .offering [] => { s with publishers := s.publishers.hdel publisher }
  | .offering (w :: rest) =>
    if (s.slots w).queued < capacity then
      { s.setSlot w { s.slots w with queued := (s.slots w).queued + 1 } with
        publishers := s.publishers.hset publisher (.offering rest) }
    else { s with publishers := s.publishers.hset publisher (.counting w rest) }
  | .counting w rest =>
    { s with
      dropped := Function.update s.dropped w (s.dropped w + 1)
      publishers := s.publishers.hset publisher (.flagging w rest) }
  | .flagging w rest =>
    { s with
      inboxFull := true
      owed := insert w s.owed
      publishers := s.publishers.hset publisher (.offering rest) }

def step (capacity : Nat) (s : Signal n) : SignalAct n → Signal n
  | .broadcast publisher =>
    if s.publishers.hexists publisher then s
    else { s with publishers := s.publishers.hset publisher (.offering (List.finRange n)) }
  | .publish publisher =>
    match s.publishers.hget publisher with
    | some p => s.publishStep capacity publisher p
    | none => s
  | .iterate w effectiveBudget =>
    let slot := s.slots w
    if slot.phase = .working then s.setSlot w { slot with phase := .draining, effectiveBudget }
    else s
  | .work w inflightBytes => s.setSlot w { s.slots w with inflightBytes }
  | .receive w =>
    let slot := s.slots w
    if slot.phase ≠ .draining then s
    else if slot.queued = 0 then
      { s.setSlot w { slot with phase := .emptied } with owed := s.owed.erase w }
    else s.setSlot w { slot with queued := slot.queued - 1 }
  | .deliver w inflightBytes =>
    let slot := s.slots w
    if slot.phase ≠ .draining then s
    else if shedBand slot.inflightBytes slot.effectiveBudget = .saturated then
      (s.setSlot w { slot with budgetSaturated := true }).noteCheck w
    else s.setSlot w { slot with inflightBytes }
  | .clear w =>
    let slot := s.slots w
    if slot.phase = .emptied then
      { s.setSlot w { slot with phase := .cleared } with inboxFull := false }
    else s
  | .check w =>
    let slot := s.slots w
    if slot.phase = .cleared then
      (s.setSlot w { slot with
        phase := .working
        budgetSaturated := updateBudgetPressure slot.budgetSaturated slot.inflightBytes
          slot.effectiveBudget }).noteCheck w
    else s

/-- The flag is lowered only when nobody is owed it, and no check of a worker over its
budget finds the budget switched off. -/
def Respects (s : Signal n) : SignalAct n → Prop
  | .clear w => (s.slots w).phase = .emptied → s.owed = ∅
  | .check w => w ∈ s.overBudget → (s.slots w).effectiveBudget ≠ 0
  | _ => True

instance (s : Signal n) (a : SignalAct n) : Decidable (s.Respects a) := by
  cases a <;> unfold Respects <;> infer_instance

/-- What is owed is up. -/
structure Holds (s : Signal n) : Prop where
  flag : s.owed.Nonempty → s.inboxFull = true
  bit : ∀ w ∈ s.overBudget, (s.slots w).budgetSaturated = true

theorem below_of_shedBand_normal {inflight budget : Nat} (hbudget : budget ≠ 0)
    (h : shedBand inflight budget = .normal) : inflight * 100 < budget * 80 := by
  unfold shedBand saturatingMul at h
  rw [if_neg hbudget] at h
  dsimp only at h
  split at h
  next hbelow => omega
  next =>
    split at h
    · cases h
    · split at h <;> cases h

/-- The bit is lowered only below 80 percent. -/
theorem updateBudgetPressure_keeps {inflight budget : Nat} (hbudget : budget ≠ 0)
    (habove : budget * 80 ≤ inflight * 100) :
    updateBudgetPressure true inflight budget = true := by
  unfold updateBudgetPressure
  split
  · rfl
  next hnormal => exact absurd (below_of_shedBand_normal hbudget hnormal) (Nat.not_lt.mpr habove)
  · rfl

variable {s : Signal n} {w : Fin n}

@[simp] theorem setSlot_self (s : Signal n) (w : Fin n) (slot : SlotState) :
    (s.setSlot w slot).slots w = slot := by
  simp [setSlot]

theorem setSlot_ne (s : Signal n) {w v : Fin n} (hne : v ≠ w) (slot : SlotState) :
    (s.setSlot w slot).slots v = s.slots v := by
  simp [setSlot, hne]

/-- A step that keeps the worker's bit, or raises it. -/
theorem Holds.setSlot (h : s.Holds) (slot : SlotState)
    (hbit : w ∈ s.overBudget → slot.budgetSaturated = true) : (s.setSlot w slot).Holds := by
  refine ⟨h.flag, fun v hv => ?_⟩
  by_cases hne : v = w
  · rw [hne, setSlot_self]
    exact hbit (hne ▸ hv)
  · rw [setSlot_ne s hne]
    exact h.bit v hv

/-- A check that leaves the bit as its findings demand. -/
theorem Holds.noteCheck (hflag : s.owed.Nonempty → s.inboxFull = true)
    (hothers : ∀ v ∈ s.overBudget, v ≠ w → (s.slots v).budgetSaturated = true)
    (hreached : (s.slots w).effectiveBudget ≠ 0 →
      (s.slots w).effectiveBudget ≤ (s.slots w).inflightBytes →
      (s.slots w).budgetSaturated = true)
    (hbetween : w ∈ s.overBudget →
      (s.slots w).effectiveBudget * 80 ≤ (s.slots w).inflightBytes * 100 →
      (s.slots w).budgetSaturated = true) : (s.noteCheck w).Holds := by
  unfold Signal.noteCheck
  dsimp only
  split
  next hover =>
    refine ⟨hflag, fun v hv => ?_⟩
    by_cases hne : v = w
    · rw [hne]
      exact hreached hover.1 hover.2
    · exact hothers v (Finset.mem_of_mem_insert_of_ne hv hne) hne
  next =>
    split
    next =>
      refine ⟨hflag, fun v hv => ?_⟩
      obtain ⟨hne, hv⟩ := Finset.mem_erase.mp hv
      exact hothers v hv hne
    next habove =>
      refine ⟨hflag, fun v hv => ?_⟩
      by_cases hne : v = w
      · rw [hne]
        exact hbetween (hne ▸ hv) (Nat.not_lt.mp habove)
      · exact hothers v hv hne

theorem Holds.publish (h : s.Holds) (capacity publisher : Nat) (p : Publisher n) :
    (s.publishStep capacity publisher p).Holds := by
  unfold publishStep
  split
  · exact ⟨h.flag, h.bit⟩
  next w rest =>
    split
    · obtain ⟨hflag, hbit⟩ := h.setSlot (w := w)
        { s.slots w with queued := (s.slots w).queued + 1 } (h.bit w)
      exact ⟨hflag, hbit⟩
    · exact ⟨h.flag, h.bit⟩
  · exact ⟨h.flag, h.bit⟩
  · exact ⟨fun _ => rfl, h.bit⟩

theorem Holds.deliver (h : s.Holds) (capacity inflightBytes : Nat) :
    (s.step capacity (.deliver w inflightBytes)).Holds := by
  unfold step
  dsimp only
  split
  · exact h
  split
  · obtain ⟨hflag, hbit⟩ := h.setSlot (w := w) { s.slots w with budgetSaturated := true }
      fun _ => rfl
    refine .noteCheck hflag (fun v hv _ => hbit v hv) ?_ ?_
    · intro _ _
      rw [setSlot_self]
    · intro _ _
      rw [setSlot_self]
  · exact h.setSlot _ (h.bit w)

theorem Holds.check (h : s.Holds) (capacity : Nat) (hrespects : s.Respects (.check w)) :
    (s.step capacity (.check w)).Holds := by
  unfold step
  dsimp only
  split
  · refine .noteCheck h.flag (fun v hv hne => ?_) ?_ ?_
    · rw [setSlot_ne s hne]
      exact h.bit v hv
    · rw [setSlot_self]
      intro hbudget hover
      show updateBudgetPressure _ _ _ = true
      unfold updateBudgetPressure
      rw [shedBand_saturated hbudget hover]
    · rw [setSlot_self]
      intro hin habove
      show updateBudgetPressure (s.slots w).budgetSaturated _ _ = true
      rw [h.bit w hin]
      exact updateBudgetPressure_keeps (hrespects hin) habove
  · exact h

/-- Nobody takes down a bit that is still owed. -/
theorem Holds.step (h : s.Holds) (capacity : Nat) (a : SignalAct n) (hrespects : s.Respects a) :
    (s.step capacity a).Holds := by
  cases a with
  | broadcast =>
    unfold Signal.step
    dsimp only
    split
    · exact h
    · exact ⟨h.flag, h.bit⟩
  | publish publisher =>
    unfold Signal.step
    dsimp only
    split
    next p _ => exact h.publish capacity publisher p
    next => exact h
  | iterate w =>
    unfold Signal.step
    dsimp only
    split
    · exact h.setSlot _ (h.bit w)
    · exact h
  | work w => exact h.setSlot _ (h.bit w)
  | receive w =>
    unfold Signal.step
    dsimp only
    split
    · exact h
    split
    · -- the channel is empty: the worker is owed nothing any more
      obtain ⟨hflag, hbit⟩ := h.setSlot (w := w) { s.slots w with phase := .emptied } (h.bit w)
      refine ⟨fun hsome => hflag ?_, hbit⟩
      obtain ⟨v, hv⟩ := hsome
      exact ⟨v, Finset.mem_of_mem_erase hv⟩
    · exact h.setSlot _ (h.bit w)
  | deliver _ inflightBytes => exact h.deliver capacity inflightBytes
  | clear w =>
    unfold Signal.step
    dsimp only
    split
    next hemptied =>
      obtain ⟨-, hbit⟩ := h.setSlot (w := w) { s.slots w with phase := .cleared } (h.bit w)
      refine ⟨fun hsome => ?_, hbit⟩
      have hnone : s.owed = ∅ := hrespects hemptied
      obtain ⟨v, hv⟩ := hsome
      have hv' : v ∈ s.owed := hv
      rw [hnone] at hv'
      exact absurd hv' (Finset.notMem_empty v)
    next => exact h
  | check => exact h.check capacity hrespects

end Signal

/-- In every run in which the flag is lowered only while no worker is owed it and no check of
a worker over its budget finds the budget switched off: the signal is up while some worker
was found full and has not drained its inbox to empty since, and while some worker has found
its bytes at its budget and not below 80 percent of it since. -/
theorem saturation_holds (n capacity : Nat) (as : List (SignalAct n))
    (hrespects : Along (Signal.step capacity) Signal.Respects ({} : Signal n) as) (w : Fin n) :
    let s := run (Signal.step capacity) {} as
    w ∈ s.owed ∨ w ∈ s.overBudget → s.isSaturated = true := by
  intro s howed
  have hstart : ({} : Signal n).Holds := by
    refine ⟨fun h => absurd h Finset.not_nonempty_empty, fun w hw => ?_⟩
    exact absurd hw (Finset.notMem_empty w)
  have hholds : s.Holds := hrespects.invariant
    (fun s a (h : s.Holds) hrespects => h.step capacity a hrespects) hstart
  unfold Signal.isSaturated
  rcases howed with hfull | hover
  · rw [hholds.flag ⟨w, hfull⟩, Bool.true_or]
  · rw [Bool.or_eq_true, decide_eq_true_iff]
    exact .inr ⟨w, hholds.bit w hover⟩

/-- Two workers with room for one message each: the second broadcast finds worker 1 full
after worker 0 has taken its own first message. -/
def fullRun : List (SignalAct 2) :=
  [.broadcast 0, .publish 0, .publish 0, .publish 0, .iterate 0 0, .receive 0,
    .broadcast 1, .publish 1, .publish 1, .publish 1, .publish 1]

theorem saturation_holds_full :
    (1 : Fin 2) ∈ (run (Signal.step 1) {} fullRun).owed ∧
      (run (Signal.step 1) {} fullRun).isSaturated = true := by
  have howed : (1 : Fin 2) ∈ (run (Signal.step 1) {} fullRun).owed := by decide
  exact ⟨howed, saturation_holds 2 1 fullRun (by decide) 1 (.inl howed)⟩

/-- Worker 0 drains the rest of its own inbox and lowers the flag. Worker 1 has received
nothing, and its channel is still full. -/
theorem saturation_lost :
    let s := run (Signal.step 1) {} (fullRun ++ [.receive 0, .receive 0, .clear 0])
    (1 : Fin 2) ∈ s.owed ∧ (s.slots 1).queued = 1 ∧ s.isSaturated = false := by
  decide

end Pylon.Transport
