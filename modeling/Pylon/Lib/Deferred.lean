import Pylon.Lib.Edge

/-!
# Edges announced later

Several parties change one two-level signal. Whoever changes it is awarded the edge and
announces it in a later step, so announcements may come in another order than the changes.
They cannot as long as nobody is awarded an edge while another one is still unannounced
(`Deferred.award`): once nothing is pending, the last announcement tells the level.
-/

namespace Pylon.Lib

variable {ι : Type*} [DecidableEq ι]

/-- At most one party has an edge to announce, and it is the one that made the level what it
is; with none to announce, the announcements tell the level. -/
structure Deferred (level : Prop) (announced : List Edge) (pending : ι → Option Edge) : Prop where
  alone : ∀ i j, pending i ≠ none → pending j ≠ none → i = j
  owed : ∀ i e, pending i = some e → (e = .up ↔ level)
  told : (∀ i, pending i = none) → (High announced ↔ level)

namespace Deferred

variable {level level' : Prop} {announced : List Edge} {pending : ι → Option Edge}

omit [DecidableEq ι] in
theorem start (hlow : ¬ level) : Deferred level [] (fun _ : ι => none) where
  alone := fun _ _ hi => absurd rfl hi
  owed := fun _ _ hi => by cases hi
  told := fun _ => iff_of_false not_high_nil hlow

omit [DecidableEq ι] in
theorem congr (h : Deferred level announced pending) (hlevel : level' ↔ level) :
    Deferred level' announced pending where
  alone := h.alone
  owed := fun i e hi => (h.owed i e hi).trans hlevel.symm
  told := fun hnone => (h.told hnone).trans hlevel.symm

/-- Whoever announces tells the level. -/
theorem announce (h : Deferred level announced pending) (i : ι) :
    Deferred level (announced ++ (pending i).toList) (Function.update pending i none) := by
  have hothers : ∀ j, Function.update pending i none j ≠ none → j ≠ i ∧ pending j ≠ none := by
    intro j hj
    have hne : j ≠ i := by
      rintro rfl
      rw [Function.update_self] at hj
      exact hj rfl
    rw [Function.update_of_ne hne] at hj
    exact ⟨hne, hj⟩
  refine ⟨fun j k hj hk => h.alone j k (hothers j hj).2 (hothers k hk).2, fun j e hj => ?_,
    fun hnone => ?_⟩
  · obtain ⟨hne, -⟩ := hothers j (by rw [hj]; exact Option.some_ne_none e)
    rw [Function.update_of_ne hne] at hj
    exact h.owed j e hj
  · cases hi : pending i with
    | none =>
      have hall : ∀ j, pending j = none := by
        intro j
        by_cases hj : j = i
        · rw [hj, hi]
        · rw [← hnone j, Function.update_of_ne hj]
      simpa using h.told hall
    | some e =>
      rw [Option.toList_some, high_snoc]
      exact h.owed i e hi

/-- A party changes the level and is awarded the edge, with nothing else unannounced. -/
theorem award (i : ι) {e : Edge} (hothers : ∀ j, j ≠ i → pending j = none)
    (hedge : e = .up ↔ level) : Deferred level announced (Function.update pending i (some e)) := by
  have hself : ∀ j, Function.update pending i (some e) j ≠ none → j = i := by
    intro j hj
    by_contra hne
    rw [Function.update_of_ne hne] at hj
    exact hj (hothers j hne)
  refine ⟨fun j k hj hk => (hself j hj).trans (hself k hk).symm, fun j e' hj => ?_,
    fun hnone => ?_⟩
  · obtain rfl := hself j (by rw [hj]; exact Option.some_ne_none e')
    rw [Function.update_self] at hj
    cases hj
    exact hedge
  · have hi := hnone i
    rw [Function.update_self] at hi
    cases hi

end Deferred

end Pylon.Lib
