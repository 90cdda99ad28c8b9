import Mathlib.Data.List.Induction

/-!
# The least value seen

A running minimum keeps one value for a whole list of samples. It is `List.min?` of
them, so it does not depend on their order nor on how often each was taken.
-/

namespace Pylon.Lib

variable {α : Type*} [Min α]

/-- Fold a sample into the least one so far. -/
def lower (least : Option α) (sample : α) : α :=
  least.elim sample (min · sample)

theorem min?_concat (samples : List α) (sample : α) :
    (samples ++ [sample]).min? = some (lower samples.min? sample) := by
  cases samples with
  | nil => rfl
  | cons =>
    rw [List.cons_append, List.min?_cons', List.min?_cons', List.foldl_append]
    rfl

/-- The least of the samples stands for all of them. -/
theorem min?_toList_append (samples more : List α) :
    (samples.min?.toList ++ more).min? = (samples ++ more).min? := by
  induction more using List.reverseRecOn with
  | nil =>
    rw [List.append_nil, List.append_nil]
    cases samples.min? <;> rfl
  | append_singleton _ _ ih =>
    rw [← List.append_assoc, ← List.append_assoc, min?_concat, min?_concat, ih]

section Order

variable [LE α] [Std.IsLinearOrder α] [Std.LawfulOrderMin α]

theorem min?_congr {samples samples' : List α} (h : ∀ a, a ∈ samples ↔ a ∈ samples') :
    samples.min? = samples'.min? := by
  cases hleast : samples'.min? with
  | none =>
    rw [List.min?_eq_none_iff] at hleast ⊢
    subst hleast
    exact List.eq_nil_iff_forall_not_mem.mpr fun a ha => absurd ((h a).mp ha) List.not_mem_nil
  | some least =>
    rw [List.min?_eq_some_iff] at hleast ⊢
    exact ⟨(h least).mpr hleast.1, fun a ha => hleast.2 a ((h a).mp ha)⟩

/-- A bound below the least sample is below each. -/
theorem lt_lower_iff [LT α] [Std.LawfulOrderLT α] {bound sample : α} {samples : List α} :
    bound < lower samples.min? sample ↔ ∀ a ∈ samples ++ [sample], bound < a := by
  have hleast := List.min?_eq_some_iff.mp (min?_concat samples sample)
  constructor
  · intro hlt a ha
    exact Std.lt_of_lt_of_le hlt (hleast.2 a ha)
  · intro hall
    exact hall _ hleast.1

end Order

end Pylon.Lib
