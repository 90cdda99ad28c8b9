import Mathlib.Algebra.Order.Group.MinMax
import Mathlib.Algebra.Order.Group.Defs

/-!
# A reservoir with a brim

A level that rises and never passes a brim. Rising in two steps is rising once by the
sum, so it does not matter when the level was looked at in between.
-/

namespace Pylon.Lib

variable {α : Type*} [AddCommGroup α] [LinearOrder α]

/-- The level raised by `amount`, up to `brim`. -/
def rise (brim level amount : α) : α := min (level + amount) brim

variable {brim level amount : α}

theorem rise_le_brim : rise brim level amount ≤ brim := min_le_right _ _

theorem rise_le_add : rise brim level amount ≤ level + amount := min_le_left _ _

theorem le_rise {goal : α} (hbrim : goal ≤ brim) (hlevel : goal ≤ level + amount) :
    goal ≤ rise brim level amount :=
  le_min hlevel hbrim

theorem rise_zero (h : level ≤ brim) : rise brim level 0 = level := by
  rw [rise, add_zero, min_eq_left h]

variable [IsOrderedAddMonoid α]

theorem rise_rise {more : α} (hmore : 0 ≤ more) :
    rise brim (rise brim level amount) more = rise brim level (amount + more) := by
  have hbrim : brim ≤ brim + more := le_add_of_nonneg_right hmore
  unfold rise
  rw [← min_add_add_right, min_assoc, min_eq_right hbrim, add_assoc]

end Pylon.Lib
