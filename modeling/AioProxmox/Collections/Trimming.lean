import Mathlib.Data.List.DropRight

/-!
# Collections - lists without their ends

Dropping from a list the elements at its end that have a property.

Main results:

- Theorem {lit}`rdropWhile_append_cons`: an element without it stays, with what is before.
- Theorem {lit}`rdropWhile_append_of_neg`: so does a part without it.
- Theorem {lit}`forall_ne_of_notMem`: the elements of a list differ from what is not in it.
-/

namespace Collections

variable {α : Type*} {p : α → Bool} {xs ys : List α} {a : α}

/-- An element without it stays, and so does what is before it. -/
theorem rdropWhile_append_cons (xs : List α) (ha : p a = false) (ys : List α) :
    (xs ++ a :: ys).rdropWhile p = xs ++ a :: ys.rdropWhile p := by
  induction ys using List.reverseRecOn with
  | nil =>
      rw [List.rdropWhile_concat_neg, List.rdropWhile_nil]
      rw [ha]
      exact Bool.false_ne_true
  | append_singleton ys b ih =>
      rw [← List.cons_append, ← List.append_assoc]
      by_cases hb : p b = true
      · rw [List.rdropWhile_concat_pos _ _ _ hb, List.rdropWhile_concat_pos _ _ _ hb, ih]
      · rw [List.rdropWhile_concat_neg _ _ _ hb, List.rdropWhile_concat_neg _ _ _ hb,
          List.append_assoc, List.cons_append]

/-- So does a part none of whose elements has it. -/
theorem rdropWhile_append_of_neg (xs : List α) (hne : ys ≠ []) (h : ∀ b ∈ ys, p b = false)
    (zs : List α) : (xs ++ ys ++ zs).rdropWhile p = xs ++ ys ++ zs.rdropWhile p := by
  rw [← List.dropLast_append_getLast hne, List.append_assoc, List.append_assoc,
    List.append_assoc, List.singleton_append, ← List.append_assoc,
    rdropWhile_append_cons _ (h _ (List.getLast_mem hne))]
  simp

/-- Everything in a list differs from what is not in it. -/
theorem forall_ne_of_notMem [DecidableEq α] (h : a ∉ xs) : ∀ b ∈ xs, decide (b ≠ a) = true := by
  intro b hb
  apply decide_eq_true
  rintro rfl
  exact h hb

end Collections
