import Pylon.Redis.Capacity

/-!
# The admission handshake

A worker that establishes a connection asks the bridge for a unit of the app's
cluster capacity and waits for the verdict. The verdict travels through a
one-slot buffer whose receiver the worker drops when `admit_app` returns, so
the bridge's `send` may succeed although the worker has stopped listening.

A unit is always answered for by one of the parties or by the verdict in the
slot; the one step that can drop it is the worker's `drop` after a timeout.
-/

namespace Pylon.Cluster

open Pylon.Lib Pylon.Redis

variable {Node App : Type} [DecidableEq Node] [DecidableEq App]

/-- Where the worker is in the attempt. -/
inductive WorkerPhase
  /-- About to `try_send` the command. -/
  | sending
  /-- In `recv_timeout`. -/
  | waiting
  /-- `recv_timeout` returned `Ok`; the receiver still exists. -/
  | heard (verdict : Option Bool)
  /-- `recv_timeout` timed out; the receiver still exists. -/
  | timedOut
  /-- `admit_app` returned. -/
  | returned (verdict : Option Bool)
  /-- Refused with 4004. -/
  | rejected
  | established (clusterAdmitted : Bool)
  /-- `remove` has sent the `ReleaseApp`. -/
  | releasing
  | closed
  deriving DecidableEq

/-- Where the bridge is in the `AdmitApp` arm. -/
inductive BridgePhase
  /-- The command has not come. -/
  | idle
  | queued
  /-- The script has run; the verdict is to be sent. -/
  | ran (verdict : Option Bool)
  /-- The send failed on `Some(true)`: the unit is to be released. -/
  | owing
  | done
  deriving DecidableEq

/-- One attempt, with the counts of the units it took and gave back. -/
structure Attempt (Node App : Type) where
  keys : CapacityKeys Node App
  worker : WorkerPhase
  bridge : BridgePhase
  /-- The buffer of `sync_channel(1)`. -/
  slot : Option (Option Bool)
  taken : Nat
  given : Nat

def Attempt.start (keys : CapacityKeys Node App) : Attempt Node App :=
  ⟨keys, .sending, .idle, none, 0, 0⟩

/-- The steps of the worker, of the bridge, and of everybody else's scripts. -/
inductive AttemptAct (Node App : Type)
  /-- `try_send`; `room` is false when the channel is full. -/
  | send (room : Bool)
  | receive
  | timeout
  | drop
  | finish
  | close
  | script
  | reply
  | handBack
  | release
  | foreign (a : CapacityAct Node App)

/-- The receiver has not been dropped. -/
def WorkerPhase.listening : WorkerPhase → Bool
  | .sending | .waiting | .heard _ | .timedOut => true
  | .returned _ | .rejected | .established _ | .releasing | .closed => false

/-- `cluster_admit_app`, without Redis errors. -/
def Attempt.clusterAdmitApp (s : Attempt Node App) (app : App) (node : Node) (capacity : Nat) :
    Attempt Node App :=
  let (keys, reply) := admitApp s.keys app node capacity
  if reply = 1 then { s with keys, bridge := .ran (some true), taken := s.taken + 1 }
  else { s with keys, bridge := .ran (some false) }

/-- `cluster_release_app`, on behalf of the attempt. -/
def Attempt.clusterReleaseApp (s : Attempt Node App) (app : App) (node : Node) :
    Attempt Node App :=
  { s with keys := (releaseApp s.keys app node).1, given := s.given + 1 }

/-- What `finish_establish` makes of the verdict. -/
def verdictPhase : Option Bool → WorkerPhase
  | some true => .established true
  | some false => .rejected
  | none => .established false

/-- `if reply.send(verdict).is_err() && verdict == Some(true)`; a full buffer
blocks the send. -/
def Attempt.replySend (s : Attempt Node App) (verdict : Option Bool) : Attempt Node App :=
  if s.worker.listening then
    if s.slot = none then { s with bridge := .done, slot := some verdict } else s
  else if verdict = some true then { s with bridge := .owing }
  else { s with bridge := .done }

/-- One step of one party; nothing when it is not that party's turn. -/
def attemptStep (app : App) (node : Node) (capacity : Nat) (s : Attempt Node App) :
    AttemptAct Node App → Attempt Node App
  | .send room =>
    if s.worker = .sending then
      if room then { s with worker := .waiting, bridge := .queued }
      else { s with worker := .returned none }
    else s
  | .receive =>
    match s.worker, s.slot with
    | .waiting, some verdict => { s with worker := .heard verdict, slot := none }
    | _, _ => s
  | .timeout => if s.worker = .waiting ∧ s.slot = none then { s with worker := .timedOut } else s
  | .drop =>
    -- what is still in the buffer goes with the receiver
    match s.worker with
    | .heard verdict => { s with worker := .returned verdict, slot := none }
    | .timedOut => { s with worker := .returned none, slot := none }
    | _ => s
  | .finish =>
    match s.worker with
    | .returned verdict => { s with worker := verdictPhase verdict }
    | _ => s
  | .close =>
    match s.worker with
    | .established clusterAdmitted =>
      { s with worker := if clusterAdmitted then .releasing else .closed }
    | _ => s
  | .script => if s.bridge = .queued then s.clusterAdmitApp app node capacity else s
  | .reply =>
    match s.bridge with
    | .ran verdict => s.replySend verdict
    | _ => s
  | .handBack =>
    if s.bridge = .owing then { s.clusterReleaseApp app node with bridge := .done } else s
  | .release =>
    if s.worker = .releasing then { s.clusterReleaseApp app node with worker := .closed } else s
  | .foreign a => { s with keys := capacityStep s.keys a }

/-! ## Admissions and the writes against them -/

/-- Both parties have finished with the attempt: the bridge never got the
command or is done with it, and the worker refused, or has or had a session. -/
def Attempt.Finished (s : Attempt Node App) : Prop :=
  (s.bridge = .idle ∨ s.bridge = .done) ∧
    (s.worker = .rejected ∨ (∃ b, s.worker = .established b) ∨ s.worker = .closed)

/-- The attempt holds one unit if its session has `cluster_admitted` set, and
none otherwise. -/
def Attempt.Settled (s : Attempt Node App) : Prop :=
  s.taken = s.given + if s.worker = .established true then 1 else 0

/-- The condition: a worker that timed out drops its receiver with no
`Some(true)` in the buffer. -/
def Unlost (s : Attempt Node App) : AttemptAct Node App → Prop
  | .drop => ¬ (s.worker = .timedOut ∧ s.slot = some (some true))
  | _ => True

instance (s : Attempt Node App) : ∀ a, Decidable (Unlost s a)
  | .drop => inferInstanceAs (Decidable (¬ _))
  | .send _ | .receive | .timeout | .finish | .close | .script | .reply | .handBack | .release
  | .foreign _ => isTrue trivial

/-! ## Who answers for the unit -/

/-- The unit that comes with a verdict. -/
def verdictUnit : Option Bool → Nat
  | some true => 1
  | some false | none => 0

def WorkerPhase.held : WorkerPhase → Nat
  | .heard verdict | .returned verdict => verdictUnit verdict
  | .established clusterAdmitted => if clusterAdmitted then 1 else 0
  | .releasing => 1
  | .sending | .waiting | .timedOut | .rejected | .closed => 0

def BridgePhase.held : BridgePhase → Nat
  | .ran verdict => verdictUnit verdict
  | .owing => 1
  | .idle | .queued | .done => 0

/-- The unit of a verdict in the buffer. -/
def slotHeld : Option (Option Bool) → Nat
  | some verdict => verdictUnit verdict
  | none => 0

/-- The units that a party answers for, or that are in the buffer. -/
def Attempt.held (s : Attempt Node App) : Nat :=
  s.worker.held + s.bridge.held + slotHeld s.slot

/-- What every step keeps: the buffer outlives neither the receiver nor a
verdict that was heard, and the bridge answers once. -/
structure Attempt.Orderly (s : Attempt Node App) : Prop where
  unsent : s.worker = .sending → s.bridge = .idle
  unanswered : s.bridge ≠ .done → s.slot = none
  heard : ∀ verdict, s.worker = .heard verdict → s.bridge = .done ∧ s.slot = none
  dropped : s.worker.listening = false → s.slot = none

section Steps

variable {s : Attempt Node App}

section

omit [DecidableEq Node] [DecidableEq App]

/-- With the buffer empty only the early and the late phase have to be looked at. -/
theorem Attempt.Orderly.of_empty (hslot : s.slot = none)
    (hunsent : s.worker = .sending → s.bridge = .idle)
    (hheard : ∀ verdict, s.worker = .heard verdict → s.bridge = .done) : s.Orderly :=
  ⟨hunsent, fun _ => hslot, fun v hv => ⟨hheard v hv, hslot⟩, fun _ => hslot⟩

theorem Attempt.Orderly.start (keys : CapacityKeys Node App) : (Attempt.start keys).Orderly := by
  refine Attempt.Orderly.of_empty rfl (fun _ => rfl) ?_
  intro verdict hheard
  cases hheard

/-- A bridge that has the command but is not done with it faces a worker that
waits or has left. -/
theorem Attempt.Orderly.midway (h : s.Orderly) (hidle : s.bridge ≠ .idle)
    (hdone : s.bridge ≠ .done) :
    s.slot = none ∧ s.worker ≠ .sending ∧ ∀ verdict, s.worker ≠ .heard verdict := by
  refine ⟨h.unanswered hdone, ?_, ?_⟩
  · intro hsending
    exact hidle (h.unsent hsending)
  · intro verdict hheard
    exact hdone (h.heard verdict hheard).1

end

theorem verdictPhase_held (verdict : Option Bool) :
    (verdictPhase verdict).held = verdictUnit verdict := by
  rcases verdict with _ | b
  · rfl
  · cases b <;> rfl

theorem listening_verdictPhase (verdict : Option Bool) :
    (verdictPhase verdict).listening = false := by
  rcases verdict with _ | b
  · rfl
  · cases b <;> rfl

variable {app : App} {node : Node} {capacity : Nat}

/-- Whichever half moves, the bridge answers once. -/
theorem Attempt.Orderly.step (h : s.Orderly) (a : AttemptAct Node App) :
    (attemptStep app node capacity s a).Orderly := by
  cases a with
  | send =>
    simp only [attemptStep]
    split
    next hsending =>
      have hslot : s.slot = none := h.unanswered (by rw [h.unsent hsending]; simp)
      split <;> exact .of_empty hslot (by simp) (by simp)
    next => exact h
  | receive =>
    simp only [attemptStep]
    split
    next verdict hwaiting hslot =>
      have hdone : s.bridge = .done := by
        by_contra hbusy
        rw [h.unanswered hbusy] at hslot
        cases hslot
      exact .of_empty rfl (by simp) fun _ _ => hdone
    next => exact h
  | timeout =>
    simp only [attemptStep]
    split
    next hnow => exact .of_empty hnow.2 (by simp) (by simp)
    next => exact h
  | drop =>
    simp only [attemptStep]
    split
    · exact .of_empty rfl (by simp) (by simp)
    · exact .of_empty rfl (by simp) (by simp)
    · exact h
  | finish =>
    simp only [attemptStep]
    split
    next verdict hreturned =>
      have hdeaf := listening_verdictPhase verdict
      refine .of_empty (h.dropped (by rw [hreturned]; rfl)) ?_ ?_
      · intro hsending
        rw [show verdictPhase verdict = .sending from hsending] at hdeaf
        cases hdeaf
      · intro v hv
        rw [show verdictPhase verdict = .heard v from hv] at hdeaf
        cases hdeaf
    next => exact h
  | close =>
    simp only [attemptStep]
    split
    next b hsession =>
      have hslot : s.slot = none := h.dropped (by rw [hsession]; rfl)
      cases b <;> exact .of_empty hslot (by simp) (by simp)
    next => exact h
  | script =>
    simp only [attemptStep]
    split
    next hqueued =>
      obtain ⟨hslot, hsent, hdeaf⟩ := h.midway (by simp [hqueued]) (by simp [hqueued])
      simp only [Attempt.clusterAdmitApp]
      split <;> exact .of_empty hslot (fun hw => absurd hw hsent) fun v hw => absurd hw (hdeaf v)
    next => exact h
  | reply =>
    simp only [attemptStep]
    split
    next verdict hran =>
      obtain ⟨hslot, hsent, hdeaf⟩ := h.midway (by simp [hran]) (by simp [hran])
      simp only [Attempt.replySend, if_pos hslot]
      split
      next hlisten =>
        refine ⟨fun hw => absurd hw hsent, fun hb => absurd rfl hb,
          fun v hw => absurd hw (hdeaf v), ?_⟩
        intro hgone
        rw [show s.worker.listening = false from hgone] at hlisten
        cases hlisten
      next =>
        split <;> exact .of_empty hslot (fun hw => absurd hw hsent) fun v hw => absurd hw (hdeaf v)
    next => exact h
  | handBack =>
    simp only [attemptStep]
    split
    next howing =>
      obtain ⟨hslot, hsent, hdeaf⟩ := h.midway (by simp [howing]) (by simp [howing])
      exact .of_empty hslot (fun hw => absurd hw hsent) fun _ _ => rfl
    next => exact h
  | release =>
    simp only [attemptStep]
    split
    next hreleasing => exact .of_empty (h.dropped (by rw [hreleasing]; rfl)) (by simp) (by simp)
    next => exact h
  | foreign => exact ⟨h.unsent, h.unanswered, h.heard, h.dropped⟩

/-- The attempt took `n` units that nobody answers for any more. -/
def Attempt.Lost (s : Attempt Node App) (n : Nat) : Prop := s.taken = s.given + s.held + n

variable {n : Nat}

/-- The worker's `drop` loses the unit of a `Some(true)` that came too late. -/
theorem Attempt.Lost.drop (h : s.Orderly) (hlost : s.Lost n) :
    (attemptStep app node capacity s .drop).Lost (n + if Unlost s .drop then 0 else 1) := by
  unfold Attempt.Lost Attempt.held at hlost
  by_cases hok : Unlost s .drop
  · rw [if_pos hok]
    simp only [attemptStep]
    split
    next verdict hheard =>
      rw [hheard, (h.heard verdict hheard).2] at hlost
      exact hlost
    next htimedOut =>
      have hnone : slotHeld s.slot = 0 := by
        have hlate : s.slot ≠ some (some true) := fun hlate => hok ⟨htimedOut, hlate⟩
        rcases hslot : s.slot with _ | _ | _ | _
        · rfl
        · rfl
        · rfl
        · exact absurd hslot hlate
      rw [htimedOut, hnone] at hlost
      exact hlost
    next => exact hlost
  · obtain ⟨htimedOut, hlate⟩ := not_not.mp hok
    rw [if_neg hok]
    simp only [attemptStep, htimedOut, hlate, WorkerPhase.held, slotHeld, verdictUnit] at hlost ⊢
    simp only [Attempt.Lost, Attempt.held, WorkerPhase.held, slotHeld, verdictUnit]
    omega

theorem Attempt.Lost.send (h : s.Orderly) (hlost : s.Lost n) (room : Bool) :
    (attemptStep app node capacity s (.send room)).Lost n := by
  unfold Attempt.Lost Attempt.held at hlost
  simp only [attemptStep]
  split
  next hsending =>
    rw [hsending, h.unsent hsending] at hlost
    cases room with
    | true => exact hlost
    | false =>
      simp only [Attempt.Lost, Attempt.held, h.unsent hsending]
      exact hlost
  next => exact hlost

/-- A verdict taken out of the buffer is in the worker's hands. -/
theorem Attempt.Lost.receive (hlost : s.Lost n) :
    (attemptStep app node capacity s .receive).Lost n := by
  unfold Attempt.Lost Attempt.held at hlost
  simp only [attemptStep]
  split
  next verdict hwaiting hslot =>
    simp only [hwaiting, hslot, WorkerPhase.held, slotHeld] at hlost
    simp only [Attempt.Lost, Attempt.held, WorkerPhase.held, slotHeld]
    omega
  next => exact hlost

/-- A unit the script takes is with the bridge. -/
theorem Attempt.Lost.script (hlost : s.Lost n) :
    (attemptStep app node capacity s .script).Lost n := by
  unfold Attempt.Lost Attempt.held at hlost
  simp only [attemptStep]
  split
  next hqueued =>
    simp only [hqueued, BridgePhase.held] at hlost
    simp only [Attempt.clusterAdmitApp]
    split
    · simp only [Attempt.Lost, Attempt.held, BridgePhase.held, verdictUnit]
      omega
    · exact hlost
  next => exact hlost

/-- A verdict goes into the buffer, or the bridge owes the unit back. -/
theorem Attempt.Lost.reply (h : s.Orderly) (hlost : s.Lost n) :
    (attemptStep app node capacity s .reply).Lost n := by
  unfold Attempt.Lost Attempt.held at hlost
  simp only [attemptStep]
  split
  next verdict hran =>
    obtain ⟨hslot, -, -⟩ := h.midway (by simp [hran]) (by simp [hran])
    simp only [hran, hslot, BridgePhase.held, slotHeld] at hlost
    simp only [Attempt.replySend, if_pos hslot]
    split
    · -- the unit moves from the bridge into the buffer
      simp only [Attempt.Lost, Attempt.held, BridgePhase.held, slotHeld]
      omega
    · split
      next htaken =>
        subst htaken
        simp only [Attempt.Lost, Attempt.held, hslot]
        exact hlost
      next hnone =>
        have hunit : verdictUnit verdict = 0 := by
          rcases verdict with _ | _ | _
          · rfl
          · rfl
          · exact absurd rfl hnone
        rw [hunit] at hlost
        simp only [Attempt.Lost, Attempt.held, hslot]
        exact hlost
  next => exact hlost

theorem Attempt.Lost.handBack (hlost : s.Lost n) :
    (attemptStep app node capacity s .handBack).Lost n := by
  unfold Attempt.Lost Attempt.held at hlost
  simp only [attemptStep]
  split
  next howing =>
    simp only [howing, BridgePhase.held] at hlost
    simp only [Attempt.Lost, Attempt.held, Attempt.clusterReleaseApp, BridgePhase.held]
    omega
  next => exact hlost

theorem Attempt.Lost.release (hlost : s.Lost n) :
    (attemptStep app node capacity s .release).Lost n := by
  unfold Attempt.Lost Attempt.held at hlost
  simp only [attemptStep]
  split
  next hreleasing =>
    simp only [hreleasing, WorkerPhase.held] at hlost
    simp only [Attempt.Lost, Attempt.held, Attempt.clusterReleaseApp, WorkerPhase.held]
    omega
  next => exact hlost

theorem Attempt.Lost.step_of_ne (h : s.Orderly) (hlost : s.Lost n) {a : AttemptAct Node App}
    (ha : a ≠ .drop) : (attemptStep app node capacity s a).Lost n := by
  have hbooks := hlost
  unfold Attempt.Lost Attempt.held at hbooks
  cases a with
  | drop => exact absurd rfl ha
  | send room => exact hlost.send h room

  | receive => exact hlost.receive

  | timeout =>
    simp only [attemptStep]
    split
    next hnow =>
      rw [hnow.1] at hbooks
      exact hbooks
    next => exact hlost
  | finish =>
    simp only [attemptStep]
    split
    next verdict hreturned =>
      rw [hreturned] at hbooks
      simp only [Attempt.Lost, Attempt.held, verdictPhase_held]
      exact hbooks
    next => exact hlost
  | close =>
    simp only [attemptStep]
    split
    next clusterAdmitted hsession =>
      rw [hsession] at hbooks
      cases clusterAdmitted <;> exact hbooks
    next => exact hlost
  | script => exact hlost.script

  | reply => exact hlost.reply h

  | handBack => exact hlost.handBack

  | release => exact hlost.release

  | foreign => exact hlost

theorem Attempt.Lost.step (h : s.Orderly) (hlost : s.Lost n) (a : AttemptAct Node App) :
    (attemptStep app node capacity s a).Lost (n + if Unlost s a then 0 else 1) := by
  by_cases ha : a = .drop
  · subst ha
    exact hlost.drop h
  · have hmeets : Unlost s a := by
      cases a with
      | drop => exact absurd rfl ha
      | _ => trivial
    rw [if_pos hmeets]
    exact hlost.step_of_ne h ha

/-- Over a whole run nothing is lost exactly when every step meets the condition. -/
theorem Attempt.Lost.run (h : s.Orderly) (hlost : s.Lost n) (as : List (AttemptAct Node App)) :
    ∃ m, (run (attemptStep app node capacity) s as).Lost (n + m) ∧
      (m = 0 ↔ Along (attemptStep app node capacity) Unlost s as) := by
  induction as generalizing s n with
  | nil => exact ⟨0, hlost, fun _ => trivial, fun _ => rfl⟩
  | cons a _ ih =>
    obtain ⟨m, hm, hiff⟩ := ih (h.step a) (hlost.step h a)
    refine ⟨(if Unlost s a then 0 else 1) + m, ?_, ?_⟩
    · rw [← Nat.add_assoc]
      exact hm
    · rw [Nat.add_eq_zero_iff, hiff]
      refine and_congr_left fun _ => ?_
      split
      next hok => exact ⟨fun _ => hok, fun _ => rfl⟩
      next hbad => exact ⟨fun hone => absurd hone one_ne_zero, fun hok => absurd hok hbad⟩

omit [DecidableEq Node] [DecidableEq App] in
/-- When both have finished only the session answers for a unit. -/
theorem Attempt.Finished.held (hfin : s.Finished) (h : s.Orderly) :
    s.held = if s.worker = .established true then 1 else 0 := by
  obtain ⟨hbridge, hworker⟩ := hfin
  have hslot : s.slot = none := by
    apply h.dropped
    rcases hworker with hw | ⟨b, hw⟩ | hw <;> rw [hw] <;> rfl
  have hbridge : s.bridge.held = 0 := by
    rcases hbridge with hb | hb <;> rw [hb] <;> rfl
  unfold Attempt.held
  rw [hslot, hbridge]
  rcases hworker with hw | ⟨b, hw⟩ | hw
  · rw [hw]
    rfl
  · rw [hw]
    cases b <;> rfl
  · rw [hw]
    rfl

end Steps

end Pylon.Cluster
