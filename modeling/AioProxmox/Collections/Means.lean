import Mathlib.Algebra.Order.BigOperators.Group.List
import Mathlib.Algebra.Order.Field.Basic
import Mathlib.Algebra.BigOperators.Ring.List

/-!
# Collections - weighted means

The mean of the values of a list, each with its weight.

Main results:

- Definition {lit}`weightedMean`: the weighted mean.
- Theorems {lit}`le_weightedMean` and {lit}`weightedMean_le`: it keeps every bound of the
  values.
-/

namespace Collections

variable {ι R : Type*} [Field R] [LinearOrder R] [IsStrictOrderedRing R] {value weight : ι → R}
  {xs : List ι} {bound : R}

/-- The sum of the weighted values by the sum of the weights. -/
def weightedMean (value weight : ι → R) (xs : List ι) : R :=
  (xs.map fun x => value x * weight x).sum / (xs.map weight).sum

/-- Positive weights have a positive sum, where there are any. -/
theorem sum_weight_pos (hxs : xs ≠ []) (hweight : ∀ x ∈ xs, 0 < weight x) :
    0 < (xs.map weight).sum := by
  apply List.sum_pos
  · intro w hw
    rcases List.mem_map.mp hw with ⟨x, hx, rfl⟩
    exact hweight x hx
  · intro hnil
    exact hxs (List.map_eq_nil_iff.mp hnil)

/-- A bound below every value is below the mean. -/
theorem le_weightedMean (hxs : xs ≠ []) (hweight : ∀ x ∈ xs, 0 < weight x)
    (hbound : ∀ x ∈ xs, bound ≤ value x) : bound ≤ weightedMean value weight xs := by
  rw [weightedMean, le_div_iff₀ (sum_weight_pos hxs hweight), ← List.sum_map_mul_left]
  apply List.sum_le_sum
  intro x hx
  exact mul_le_mul_of_nonneg_right (hbound x hx) (hweight x hx).le

/-- A bound above every value is above the mean. -/
theorem weightedMean_le (hxs : xs ≠ []) (hweight : ∀ x ∈ xs, 0 < weight x)
    (hbound : ∀ x ∈ xs, value x ≤ bound) : weightedMean value weight xs ≤ bound := by
  rw [weightedMean, div_le_iff₀ (sum_weight_pos hxs hweight), ← List.sum_map_mul_left]
  apply List.sum_le_sum
  intro x hx
  exact mul_le_mul_of_nonneg_right (hbound x hx) (hweight x hx).le

end Collections
