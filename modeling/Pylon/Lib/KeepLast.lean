import Mathlib.Data.List.Basic

/-!
# Dropping all but the last

A queue that drops the elements with a property, except that its last element stays
whatever it is. Dropping can be done from the front in any number of rounds, and in
rounds that begin again at elements already kept: `survivors` and `victims` do not
notice. What has been kept so far is `Firm` in front of the rest.
-/

namespace Pylon.Lib.KeepLast

variable {α : Type*} (p : α → Bool)

/-- What stays of the queue. -/
def survivors : List α → List α
  | [] => []
  | a :: queue => if p a && !queue.isEmpty then survivors queue else a :: survivors queue

/-- What is dropped from it. -/
def victims : List α → List α
  | [] => []
  | a :: queue => if p a && !queue.isEmpty then a :: victims queue else victims queue

/-- Each of the first elements stays when the others follow. -/
def Firm : List α → List α → Prop
  | [], _ => True
  | a :: first, rest => (p a && !(first ++ rest).isEmpty) = false ∧ Firm first rest

variable {p} {first rest : List α}

theorem survivors_append (h : Firm p first rest) :
    survivors p (first ++ rest) = first ++ survivors p rest := by
  induction first with
  | nil => rfl
  | cons _ _ ih =>
    rw [List.cons_append, survivors, h.1, ih h.2]
    rfl

theorem victims_append (h : Firm p first rest) : victims p (first ++ rest) = victims p rest := by
  induction first with
  | nil => rfl
  | cons _ _ ih =>
    rw [List.cons_append, victims, h.1, ih h.2]
    rfl

/-- The next element stays too. -/
theorem Firm.concat {a : α} (h : Firm p first (a :: rest)) (ha : (p a && !rest.isEmpty) = false) :
    Firm p (first ++ [a]) rest := by
  induction first with
  | nil => exact ⟨ha, trivial⟩
  | cons b first ih =>
    refine ⟨?_, ih h.2⟩
    show (p b && !(first ++ [a] ++ rest).isEmpty) = false
    rw [List.append_assoc]
    exact h.1

theorem Firm.drop (h : Firm p first rest) (n : Nat) : Firm p (first.drop n) rest := by
  induction first generalizing n with
  | nil => simpa using h
  | cons _ _ ih =>
    cases n with
    | zero => exact h
    | succ n => exact ih h.2 n

/-- Elements that stay, the first `n` of which are none of the rule's business. -/
theorem kept_behind {n : Nat} (hn : n ≤ first.length) (h : Firm p (first.drop n) rest) :
    (first ++ rest).take n ++ survivors p ((first ++ rest).drop n) = first ++ survivors p rest ∧
      victims p ((first ++ rest).drop n) = victims p rest := by
  rw [List.take_append_of_le_length hn, List.drop_append_of_le_length hn, survivors_append h,
    victims_append h, ← List.append_assoc, List.take_append_drop]
  exact ⟨rfl, rfl⟩

/-! ## One round -/

section Round

-- what a round drops has the property, and something is left behind it
variable {dropped left : List α} (hp : ∀ a ∈ dropped, p a = true)
  (hleft : dropped ≠ [] → left ≠ [])

include hp hleft

theorem survivors_round : survivors p (dropped ++ left) = survivors p left := by
  induction dropped with
  | nil => rfl
  | cons a dropped ih =>
    have hne : left ≠ [] := hleft (List.cons_ne_nil a dropped)
    have hcond : (p a && !(dropped ++ left).isEmpty) = true := by
      simp [hp a List.mem_cons_self, hne]
    rw [List.cons_append, survivors, if_pos hcond]
    exact ih (fun b hb => hp b (List.mem_cons_of_mem a hb)) fun _ => hne

theorem victims_round : victims p (dropped ++ left) = dropped ++ victims p left := by
  induction dropped with
  | nil => rfl
  | cons a dropped ih =>
    have hne : left ≠ [] := hleft (List.cons_ne_nil a dropped)
    have hcond : (p a && !(dropped ++ left).isEmpty) = true := by
      simp [hp a List.mem_cons_self, hne]
    rw [List.cons_append, victims, if_pos hcond, ih (fun b hb => hp b (List.mem_cons_of_mem a hb))
      fun _ => hne]
    rfl

omit hp in
theorem Firm.round {first : List α} (h : Firm p first (dropped ++ left)) : Firm p first left := by
  induction first with
  | nil => trivial
  | cons _ first ih =>
    refine ⟨?_, ih h.2⟩
    have hempty : (first ++ (dropped ++ left)).isEmpty = (first ++ left).isEmpty := by
      cases first with
      | cons => rfl
      | nil =>
        cases dropped with
        | nil => rfl
        | cons b dropped =>
          obtain ⟨c, left, rfl⟩ := List.exists_cons_of_ne_nil (hleft (List.cons_ne_nil b dropped))
          rfl
    rw [← hempty]
    exact h.1

/-- A round behind elements that stay, the first `n` of which are none of its business. -/
theorem round_behind {first : List α} {n : Nat} (hn : dropped ≠ [] → n ≤ first.length)
    (hfirm : Firm p (first.drop n) (dropped ++ left)) :
    (first ++ (dropped ++ left)).take n = (first ++ left).take n ∧
    survivors p ((first ++ (dropped ++ left)).drop n) = survivors p ((first ++ left).drop n) ∧
    victims p ((first ++ (dropped ++ left)).drop n) =
      dropped ++ victims p ((first ++ left).drop n) := by
  by_cases hnone : dropped = []
  · subst hnone
    exact ⟨rfl, rfl, rfl⟩
  · have hle := hn hnone
    simp only [List.take_append_of_le_length hle, List.drop_append_of_le_length hle, true_and]
    have hfirm' := hfirm.round hleft
    rw [survivors_append hfirm, survivors_append hfirm', victims_append hfirm,
      victims_append hfirm']
    exact ⟨by rw [survivors_round hp hleft], victims_round hp hleft⟩

end Round

end Pylon.Lib.KeepLast
