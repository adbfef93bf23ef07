import Mathlib.Data.List.Sort

/-!
# Collections - lists sorted by a key

A stable sort by a key.  Where the key tells the elements apart the sorted list does not
depend on the order of the list it was made from.

Main results:

- Definition {lit}`sortBy`: the stable sort.
- Theorem {lit}`sortBy_eq_of_perm`: lists with the same elements are sorted alike.
-/

namespace Collections

variable {α κ : Type*} [LinearOrder κ]

/-- The elements in ascending order of their keys, those of one key in the order they had. -/
def sortBy (key : α → κ) (xs : List α) : List α :=
  xs.mergeSort fun a b => decide (key a ≤ key b)

variable {xs ys : List α}

/-- Sorting keeps each element as often as it was there. -/
theorem sortBy_perm (key : α → κ) (xs : List α) : (sortBy key xs).Perm xs :=
  List.mergeSort_perm _ _

@[simp]
theorem mem_sortBy (key : α → κ) {a : α} : a ∈ sortBy key xs ↔ a ∈ xs :=
  (sortBy_perm key xs).mem_iff

/-- Nothing is sorted to nothing. -/
@[simp]
theorem sortBy_eq_nil_iff (key : α → κ) : sortBy key xs = [] ↔ xs = [] := by
  constructor
  · intro h
    have hperm := sortBy_perm key xs
    rw [h] at hperm
    exact hperm.nil_eq.symm
  · intro h
    rw [h]
    exact List.mergeSort_nil

/-- The keys ascend. -/
theorem pairwise_sortBy (key : α → κ) (xs : List α) :
    (sortBy key xs).Pairwise fun a b => key a ≤ key b := by
  have hsorted : (sortBy key xs).Pairwise fun a b => decide (key a ≤ key b) = true := by
    apply List.pairwise_mergeSort
    · intro a b c hab hbc
      rw [decide_eq_true_eq] at hab hbc ⊢
      exact hab.trans hbc
    · intro a b
      rw [Bool.or_eq_true, decide_eq_true_eq, decide_eq_true_eq]
      exact le_total (key a) (key b)
  exact hsorted.imp fun hab => of_decide_eq_true hab

/-- Where no two elements share a key, only the elements matter. -/
theorem sortBy_eq_of_perm (key : α → κ) (h : xs.Perm ys)
    (hkey : ∀ a ∈ xs, ∀ b ∈ xs, key a = key b → a = b) : sortBy key xs = sortBy key ys := by
  have hperm : (sortBy key xs).Perm (sortBy key ys) :=
    (sortBy_perm key xs).trans (h.trans (sortBy_perm key ys).symm)
  apply List.Perm.eq_of_pairwise _ (pairwise_sortBy key xs) (pairwise_sortBy key ys) hperm
  intro a b ha hb hab hba
  rw [mem_sortBy] at ha hb
  exact hkey a ha b (h.mem_iff.mpr hb) (le_antisymm hab hba)

/-- Elements that are taken elsewhere with their keys are sorted there as here. -/
theorem map_sortBy {β : Type*} {key : α → κ} {key' : β → κ} {f : α → β}
    (h : ∀ a, key' (f a) = key a) (xs : List α) :
    (sortBy key xs).map f = sortBy key' (xs.map f) := by
  unfold sortBy
  apply List.map_mergeSort
  intro a _ b _
  rw [h, h]

end Collections
