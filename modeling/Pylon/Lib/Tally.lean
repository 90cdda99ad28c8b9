import Mathlib.Algebra.BigOperators.Group.Finset.Basic
import Mathlib.Algebra.Order.BigOperators.Group.Finset
import Mathlib.Tactic.Abel
import Pylon.Lib.Hash

/-!
# Totals over a hash

A counter kept beside a table is right when it equals the sum of what the rows
weigh. `Hash.tally w h` is that sum, over any commutative monoid (so also over
machine words), and every operation on the table moves it by one row.

The lemmas add the old row on the left instead of subtracting it on the right,
so that they hold where there is no subtraction.
-/

namespace Pylon.Lib

namespace Hash

variable {κ ν M : Type*} [DecidableEq κ] [AddCommMonoid M]

/-- What the row under `k` weighs; a row that is not there weighs nothing. -/
def weight (w : ν → M) (h : Hash κ ν) (k : κ) : M := (h.hget k).elim 0 w

/-- What all rows weigh together. -/
def tally (w : ν → M) (h : Hash κ ν) : M := ∑ k ∈ h.hkeys, h.weight w k

variable (w : ν → M) (h : Hash κ ν) (k k' : κ) (v : ν)

theorem weight_of_hget {w : ν → M} {h : Hash κ ν} {k : κ} {v : ν} (hk : h.hget k = some v) :
    h.weight w k = w v := by
  rw [weight, hk, Option.elim_some]

theorem weight_of_absent {w : ν → M} {h : Hash κ ν} {k : κ} (hk : h.hget k = none) :
    h.weight w k = 0 := by
  rw [weight, hk, Option.elim_none]

@[simp] theorem weight_hset_self : (h.hset k v).weight w k = w v :=
  weight_of_hget (hget_hset_self h k v)

theorem weight_hset_ne {k k' : κ} (hne : k' ≠ k) : (h.hset k v).weight w k' = h.weight w k' := by
  rw [weight, hget_hset_ne h v hne, weight]

theorem weight_hdel_ne {k k' : κ} (hne : k' ≠ k) : (h.hdel k).weight w k' = h.weight w k' := by
  rw [weight, hget_hdel_ne h hne, weight]

theorem tally_empty : (∅ : Hash κ ν).tally w = 0 := by
  simp [tally]

/-- The sum may run over any set that has every row. -/
theorem tally_eq_sum {s : Finset κ} (hs : h.hkeys ⊆ s) : h.tally w = ∑ k ∈ s, h.weight w k := by
  apply Finset.sum_subset hs
  intro k _ hk
  rw [mem_hkeys, not_not] at hk
  exact weight_of_absent hk

theorem tally_eq_add_erase :
    h.tally w = h.weight w k + ∑ k' ∈ h.hkeys.erase k, h.weight w k' := by
  rw [tally_eq_sum w h (Finset.insert_erase_subset k h.hkeys),
    Finset.sum_insert (Finset.notMem_erase k _)]

theorem tally_hset : (h.hset k v).tally w + h.weight w k = h.tally w + w v := by
  have hrest : ∑ k' ∈ h.hkeys.erase k, (h.hset k v).weight w k' =
      ∑ k' ∈ h.hkeys.erase k, h.weight w k' := by
    apply Finset.sum_congr rfl
    intro k' hk'
    exact weight_hset_ne w h v (Finset.ne_of_mem_erase hk')
  have herase : (h.hset k v).hkeys.erase k = h.hkeys.erase k := by
    rw [hkeys_hset, Finset.erase_insert_eq_erase]
  rw [tally_eq_add_erase w (h.hset k v) k, tally_eq_add_erase w h k, herase, hrest,
    weight_hset_self]
  abel

theorem tally_hdel : (h.hdel k).tally w + h.weight w k = h.tally w := by
  have hrest : ∑ k' ∈ h.hkeys.erase k, (h.hdel k).weight w k' =
      ∑ k' ∈ h.hkeys.erase k, h.weight w k' := by
    apply Finset.sum_congr rfl
    intro k' hk'
    exact weight_hdel_ne w h (Finset.ne_of_mem_erase hk')
  rw [tally, hkeys_hdel, hrest, tally_eq_add_erase w h k, add_comm]

theorem tally_add (w' : ν → M) :
    h.tally (fun v => w v + w' v) = h.tally w + h.tally w' := by
  unfold tally
  rw [← Finset.sum_add_distrib]
  apply Finset.sum_congr rfl
  intro k _
  unfold weight
  cases h.hget k with
  | none => exact (add_zero 0).symm
  | some => rfl

/-- A homomorphism may be applied to the rows or to the total. -/
theorem tally_map {N : Type*} [AddCommMonoid N] (f : M →+ N) :
    f (h.tally w) = h.tally fun v => f (w v) := by
  unfold tally
  rw [map_sum]
  apply Finset.sum_congr rfl
  intro k _
  unfold weight
  cases h.hget k with
  | none => exact map_zero f
  | some => rfl

/-- Weights that agree on the rows there are have the same tally. -/
theorem tally_congr {w w' : ν → M} {h : Hash κ ν} (heq : ∀ k v, h.hget k = some v → w v = w' v) :
    h.tally w = h.tally w' := by
  apply Finset.sum_congr rfl
  intro k _
  unfold weight
  cases hk : h.hget k with
  | none => rfl
  | some v => exact heq k v hk

theorem tally_eq_zero {w : ν → M} {h : Hash κ ν} (hzero : ∀ k v, h.hget k = some v → w v = 0) :
    h.tally w = 0 := by
  apply Finset.sum_eq_zero
  intro k _
  cases hk : h.hget k with
  | none => exact weight_of_absent hk
  | some v => rw [weight_of_hget hk, hzero k v hk]

theorem tally_le_tally [PartialOrder M] [IsOrderedAddMonoid M] {w w' : ν → M}
    (hle : ∀ v, w v ≤ w' v) : h.tally w ≤ h.tally w' := by
  apply Finset.sum_le_sum
  intro k _
  unfold weight
  cases h.hget k with
  | none => exact le_rfl
  | some v => exact hle v

/-- Where nothing weighs less than nothing, an empty tally has no row that weighs. -/
theorem weight_of_tally_zero [PartialOrder M] [CanonicallyOrderedAdd M] [IsOrderedAddMonoid M]
    {w : ν → M} {h : Hash κ ν} (hzero : h.tally w = 0) {k : κ} {v : ν} (hk : h.hget k = some v) :
    w v = 0 := by
  have hall := (Finset.sum_eq_zero_iff).mp hzero k (mem_hkeys_of_hget hk)
  rwa [weight_of_hget hk] at hall

end Hash

end Pylon.Lib
