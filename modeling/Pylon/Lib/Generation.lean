import Mathlib.Data.BitVec
import Mathlib.Data.List.Nodup
import Mathlib.Logic.Function.Basic
import Mathlib.Logic.Relation

/-!
# Answers that come back to a slot

Guests take slots, leave them, and new guests take the slots again. A guest may send out
one errand and wait; the answer comes back with the slot and the generation the errand was
sent under, when the slot may have another guest. It is let through only if the guest in
the slot waits under that very generation.

As long as the generations do not wrap, an answer is let through exactly to the guest who
sent the errand, and once (`Lobby.Sound`).
-/

namespace Pylon.Lib

/-- Where a guest is: not asked yet, waiting for an answer, through, or let be. -/
inductive GuestStage (w : Nat) where
  | fresh
  | waiting (gen : BitVec w)
  | settled
  | idle
  deriving DecidableEq

/-- An errand: the slot and the generation it was sent under, and which guest of the slot
sent it. -/
structure Errand (κ : Type*) (w : Nat) where
  slot : κ
  gen : BitVec w
  guest : Nat
  deriving DecidableEq

/-- `guest` counts the guests a slot has had; the last of them is in it, or gone. -/
structure Lobby (κ : Type*) (w : Nat) where
  stage : κ → Option (GuestStage w)
  guest : κ → Nat
  next : BitVec w
  errands : List (Errand κ w)
  /-- The answers let through, each with the guest it was let through to. -/
  answered : List (Errand κ w × Nat)

namespace Lobby

variable {κ : Type*} [DecidableEq κ] {w : Nat}

/-- Nobody yet. -/
def empty : Lobby κ w := ⟨fun _ => none, fun _ => 0, 0, [], []⟩

inductive Step (s : Lobby κ w) : Lobby κ w → Prop
  | arrive (k : κ) (vacant : s.stage k = none) :
      Step s { s with
        stage := Function.update s.stage k (some .fresh)
        guest := Function.update s.guest k (s.guest k + 1) }
  | depart {stage : κ → Option (GuestStage w)} (stays : ∀ k, stage k = s.stage k ∨ stage k = none) :
      Step s { s with stage }
  | pass (k : κ) (fresh : s.stage k = some .fresh) (stage : GuestStage w)
      (through : ∀ gen, stage ≠ .waiting gen) :
      Step s { s with stage := Function.update s.stage k (some stage) }
  | send (k : κ) (fresh : s.stage k = some .fresh) :
      Step s { s with
        stage := Function.update s.stage k (some (.waiting s.next))
        next := s.next + 1
        errands := s.errands ++ [⟨k, s.next, s.guest k⟩] }
  | answer (q : Errand κ w) (sent : q ∈ s.errands)
      (waits : s.stage q.slot = some (.waiting q.gen)) :
      Step s { s with
        stage := Function.update s.stage q.slot (some .settled)
        answered := s.answered ++ [(q, s.guest q.slot)] }

/-- Any number of steps. -/
def Moves : Lobby κ w → Lobby κ w → Prop := Relation.ReflTransGen Step

/-- A step, and then the guest in the slot is gone. -/
theorem Step.leave {s s' : Lobby κ w} (h : Step s s') (k : κ) :
    Moves s { s' with stage := Function.update s'.stage k none } := by
  refine .tail (.single h) (.depart fun k' => ?_)
  by_cases hk : k' = k
  · rw [hk, Function.update_self]
    exact .inr rfl
  · rw [Function.update_of_ne hk]
    exact .inl rfl

/-- What holds of every lobby that has sent fewer errands than there are generations. -/
structure Sound (s : Lobby κ w) : Prop where
  next : s.next = .ofNat w s.errands.length
  numbered : ∀ (i : Nat) (q : Errand κ w), s.errands[i]? = some q → q.gen = .ofNat w i
  guests : ∀ q ∈ s.errands, q.guest ≤ s.guest q.slot
  /-- Whoever waits has sent an errand that is not answered. -/
  waits : ∀ k gen, s.stage k = some (.waiting gen) →
    ⟨k, gen, s.guest k⟩ ∈ s.errands ∧ (⟨k, gen, s.guest k⟩ : Errand κ w) ∉ s.answered.map Prod.fst
  /-- A guest who has sent an errand and is still there waits for the answer, or has it. -/
  stays : ∀ q ∈ s.errands, s.guest q.slot = q.guest → ∀ stage, s.stage q.slot = some stage →
    stage = if q ∈ s.answered.map Prod.fst then .settled else .waiting q.gen
  addressed : ∀ p ∈ s.answered, p.1 ∈ s.errands ∧ p.2 = p.1.guest
  once : (s.answered.map Prod.fst).Nodup

theorem Sound.empty : (Lobby.empty : Lobby κ w).Sound where
  next := rfl
  numbered := fun i q h => absurd h (by simp [Lobby.empty])
  guests := fun q h => absurd h List.not_mem_nil
  waits := fun k gen h => absurd h (by simp [Lobby.empty])
  stays := fun q h => absurd h List.not_mem_nil
  addressed := fun p h => absurd h List.not_mem_nil
  once := List.nodup_nil

variable {s s' : Lobby κ w} {q : Errand κ w}

/-- Two errands are never sent under one generation. -/
theorem Sound.errand_eq (h : s.Sound) (hfew : s.errands.length ≤ 2 ^ w) {q' : Errand κ w}
    (hq : q ∈ s.errands) (hq' : q' ∈ s.errands) (hgen : q.gen = q'.gen) : q = q' := by
  obtain ⟨i, hi, rfl⟩ := List.mem_iff_getElem.mp hq
  obtain ⟨j, hj, rfl⟩ := List.mem_iff_getElem.mp hq'
  rw [h.numbered i _ (List.getElem?_eq_getElem hi), h.numbered j _ (List.getElem?_eq_getElem hj)]
    at hgen
  have heq := congrArg BitVec.toNat hgen
  rw [BitVec.toNat_ofNat, BitVec.toNat_ofNat, Nat.mod_eq_of_lt (by omega),
    Nat.mod_eq_of_lt (by omega)] at heq
  subst heq
  rfl

variable {k : κ}

section

variable (h : s.Sound)

include h

theorem Sound.not_sent_of_fresh (hfresh : s.stage k = some .fresh)
    (hq : q ∈ s.errands) (hslot : q.slot = k) : s.guest k ≠ q.guest := by
  intro hguest
  subst hslot
  have hstage := h.stays q hq hguest _ hfresh
  split at hstage <;> cases hstage

theorem Sound.fresh_gen (hfew : s.errands.length < 2 ^ w) (hq : q ∈ s.errands) :
    q.gen ≠ s.next := by
  obtain ⟨i, hi, rfl⟩ := List.mem_iff_getElem.mp hq
  rw [h.numbered i _ (List.getElem?_eq_getElem hi), h.next]
  intro hgen
  have heq := congrArg BitVec.toNat hgen
  rw [BitVec.toNat_ofNat, BitVec.toNat_ofNat, Nat.mod_eq_of_lt (by omega),
    Nat.mod_eq_of_lt (by omega)] at heq
  omega

/-- An answer is let through exactly if the guest who sent the errand is still there and
has not had it. -/
theorem Sound.waiting_iff (hfew : s.errands.length ≤ 2 ^ w) (hq : q ∈ s.errands) :
    s.stage q.slot = some (.waiting q.gen) ↔
      s.stage q.slot ≠ none ∧ s.guest q.slot = q.guest ∧ q ∉ s.answered.map Prod.fst := by
  constructor
  · intro hwaits
    obtain ⟨hsent, hopen⟩ := h.waits _ _ hwaits
    have heq : q = ⟨q.slot, q.gen, s.guest q.slot⟩ := h.errand_eq hfew hq hsent rfl
    refine ⟨by rw [hwaits]; exact Option.some_ne_none _, (congrArg Errand.guest heq).symm, ?_⟩
    rw [heq]
    exact hopen
  · rintro ⟨hthere, hguest, hopen⟩
    obtain ⟨stage, hstage⟩ := Option.ne_none_iff_exists'.mp hthere
    have hwaits := h.stays q hq hguest stage hstage
    rw [if_neg hopen] at hwaits
    rw [hstage, hwaits]

/-! ## Steps -/

theorem Sound.arrive (k : κ) :
    Sound { s with
      stage := Function.update s.stage k (some .fresh)
      guest := Function.update s.guest k (s.guest k + 1) } := by
  refine ⟨h.next, h.numbered, ?_, ?_, ?_, h.addressed, h.once⟩
  · intro q hq
    have hle := h.guests q hq
    dsimp only
    by_cases hk : q.slot = k
    · rw [hk, Function.update_self]
      rw [hk] at hle
      omega
    · rw [Function.update_of_ne hk]
      exact hle
  · intro k' gen hstage
    dsimp only at hstage ⊢
    by_cases hk : k' = k
    · rw [hk, Function.update_self] at hstage
      cases hstage
    · rw [Function.update_of_ne hk] at hstage ⊢
      exact h.waits k' gen hstage
  · intro q hq hguest stage hstage
    dsimp only at hguest hstage
    by_cases hk : q.slot = k
    · -- the slot's new guest has sent nothing
      have hle := h.guests q hq
      rw [hk, Function.update_self] at hguest
      rw [hk] at hle
      omega
    · rw [Function.update_of_ne hk] at hguest hstage
      exact h.stays q hq hguest stage hstage

theorem Sound.depart {stage : κ → Option (GuestStage w)}
    (hstays : ∀ k, stage k = s.stage k ∨ stage k = none) : Sound { s with stage } := by
  have hold : ∀ k there, stage k = some there → s.stage k = some there := by
    intro k there hthere
    rcases hstays k with hsame | hgone
    · exact hsame ▸ hthere
    · rw [hgone] at hthere
      cases hthere
  exact ⟨h.next, h.numbered, h.guests, fun k gen hk => h.waits k gen (hold k _ hk),
    fun q hq hguest there hthere => h.stays q hq hguest there (hold _ there hthere),
    h.addressed, h.once⟩

theorem Sound.pass (hfresh : s.stage k = some .fresh) {stage : GuestStage w}
    (hthrough : ∀ gen, stage ≠ .waiting gen) :
    Sound { s with stage := Function.update s.stage k (some stage) } := by
  refine ⟨h.next, h.numbered, h.guests, ?_, ?_, h.addressed, h.once⟩
  · intro k' gen hstage
    dsimp only at hstage ⊢
    by_cases hk : k' = k
    · rw [hk, Function.update_self] at hstage
      exact absurd (Option.some.inj hstage) (hthrough gen)
    · rw [Function.update_of_ne hk] at hstage
      exact h.waits k' gen hstage
  · intro q hq hguest there hstage
    dsimp only at hguest hstage
    by_cases hk : q.slot = k
    · exact absurd (hk ▸ hguest) (h.not_sent_of_fresh hfresh hq hk)
    · rw [Function.update_of_ne hk] at hstage
      exact h.stays q hq hguest there hstage

/-- While fewer than `2 ^ w` errands are out, the next generation is on none of them. -/
theorem Sound.send (hfew : s.errands.length < 2 ^ w)
    (hfresh : s.stage k = some .fresh) :
    Sound { s with
      stage := Function.update s.stage k (some (.waiting s.next))
      next := s.next + 1
      errands := s.errands ++ [⟨k, s.next, s.guest k⟩] } := by
  have hunanswered : ∀ q : Errand κ w, q.gen = s.next → q ∉ s.answered.map Prod.fst := by
    intro q hgen hq
    obtain ⟨p, hp, rfl⟩ := List.mem_map.mp hq
    exact h.fresh_gen hfew (h.addressed p hp).1 hgen
  refine ⟨?_, ?_, ?_, ?_, ?_, ?_, h.once⟩
  · dsimp only
    rw [h.next, List.length_append, List.length_singleton, BitVec.ofNat_add]
    rfl
  · intro i q hq
    dsimp only at hq
    by_cases hi : i < s.errands.length
    · rw [List.getElem?_append_left hi] at hq
      exact h.numbered i q hq
    · rw [List.getElem?_append_right (by omega)] at hq
      have hlast : i = s.errands.length := by
        have hlt := (List.getElem?_eq_some_iff.mp hq).1
        rw [List.length_singleton] at hlt
        omega
      rw [hlast, Nat.sub_self] at hq
      obtain rfl := Option.some.inj hq
      rw [hlast, ← h.next]
  · intro q hq
    rcases List.mem_append.mp hq with hold | hnew
    · exact h.guests q hold
    · obtain rfl := List.mem_singleton.mp hnew
      exact le_rfl
  · intro k' gen hstage
    dsimp only at hstage ⊢
    by_cases hk : k' = k
    · rw [hk, Function.update_self] at hstage
      obtain rfl : s.next = gen := GuestStage.waiting.inj (Option.some.inj hstage)
      rw [hk]
      exact ⟨List.mem_append_right _ List.mem_cons_self, hunanswered _ rfl⟩
    · rw [Function.update_of_ne hk] at hstage
      obtain ⟨hsent, hopen⟩ := h.waits k' gen hstage
      exact ⟨List.mem_append_left _ hsent, hopen⟩
  · intro q hq hguest stage hstage
    dsimp only at hguest hstage
    rcases List.mem_append.mp hq with hold | hnew
    · by_cases hk : q.slot = k
      · exact absurd (hk ▸ hguest) (h.not_sent_of_fresh hfresh hold hk)
      · rw [Function.update_of_ne hk] at hstage
        exact h.stays q hold hguest stage hstage
    · obtain rfl := List.mem_singleton.mp hnew
      rw [Function.update_self] at hstage
      rw [if_neg (hunanswered _ rfl)]
      exact (Option.some.inj hstage).symm
  · intro p hp
    exact ⟨List.mem_append_left _ (h.addressed p hp).1, (h.addressed p hp).2⟩

/-- A generation that still matches was given to the guest who is there. -/
theorem Sound.answer (hfew : s.errands.length ≤ 2 ^ w) (hq : q ∈ s.errands)
    (hwaits : s.stage q.slot = some (.waiting q.gen)) :
    Sound { s with
      stage := Function.update s.stage q.slot (some .settled)
      answered := s.answered ++ [(q, s.guest q.slot)] } := by
  obtain ⟨-, hguest, hopen⟩ := (h.waiting_iff hfew hq).mp hwaits
  have hanswered : ∀ q' : Errand κ w,
      q' ∈ (s.answered ++ [(q, s.guest q.slot)]).map Prod.fst ↔
        q' ∈ s.answered.map Prod.fst ∨ q' = q := by
    intro q'
    rw [List.map_append, List.mem_append, List.map_singleton, List.mem_singleton]
  refine ⟨h.next, h.numbered, h.guests, ?_, ?_, ?_, ?_⟩
  · intro k gen hstage
    dsimp only at hstage
    by_cases hk : k = q.slot
    · rw [hk, Function.update_self] at hstage
      cases hstage
    · rw [Function.update_of_ne hk] at hstage
      obtain ⟨hsent, hnot⟩ := h.waits k gen hstage
      refine ⟨hsent, fun hmem => ?_⟩
      rcases (hanswered _).mp hmem with hold | heq
      · exact hnot hold
      · exact hk (congrArg Errand.slot heq)
  · intro q' hq' hguest' stage hstage
    dsimp only at hguest' hstage
    by_cases hk : q'.slot = q.slot
    · -- only one errand of this guest, so this is the one answered
      have hold := h.stays q' hq' hguest' _ (hk ▸ hwaits)
      split at hold
      · cases hold
      · have heq : q' = q := h.errand_eq hfew hq' hq (GuestStage.waiting.inj hold).symm
        rw [hk, Function.update_self] at hstage
        rw [if_pos ((hanswered q').mpr (Or.inr heq))]
        exact (Option.some.inj hstage).symm
    · rw [Function.update_of_ne hk] at hstage
      have hsame : q' ∈ (s.answered ++ [(q, s.guest q.slot)]).map Prod.fst ↔
          q' ∈ s.answered.map Prod.fst :=
        (hanswered q').trans (or_iff_left fun heq => hk (congrArg Errand.slot heq))
      simp only [hsame]
      exact h.stays q' hq' hguest' stage hstage
  · intro p hp
    rcases List.mem_append.mp hp with hold | hnew
    · exact h.addressed p hold
    · obtain rfl := List.mem_singleton.mp hnew
      exact ⟨hq, hguest⟩
  · rw [List.map_append, List.map_singleton, List.nodup_append]
    refine ⟨h.once, List.nodup_singleton _, ?_⟩
    intro a ha b hb heq
    obtain rfl : b = q := List.mem_singleton.mp hb
    rw [heq] at ha
    exact hopen ha

end

theorem Step.errands_le (h : Step s s') : s.errands.length ≤ s'.errands.length := by
  cases h <;> simp

theorem Sound.step (h : s.Sound) (hstep : Step s s') (hfew : s'.errands.length ≤ 2 ^ w) :
    s'.Sound := by
  have hle := hstep.errands_le
  cases hstep with
  | arrive k => exact h.arrive k
  | depart stays => exact h.depart stays
  | pass _ fresh _ through => exact h.pass fresh through
  | send _ fresh =>
    rw [List.length_append, List.length_singleton] at hfew
    exact h.send (by omega) fresh
  | answer _ sent waits => exact h.answer hfew sent waits

theorem Sound.moves (h : s.Sound) (hmoves : Moves s s') (hfew : s'.errands.length ≤ 2 ^ w) :
    s'.Sound := by
  induction hmoves with
  | refl => exact h
  | tail _ hstep ih => exact (ih (hstep.errands_le.trans hfew)).step hstep hfew

end Lobby

end Pylon.Lib
