import Mathlib.Data.List.Nodup

/-!
# Collections - lists kept free of duplicates

Appending to a list those elements of another that it does not have yet, each
once and in the order of their first occurrence.

Main results:

- Theorem {lit}`appendNew_cons`: the closed form is what the usual loop with a
  membership test computes.
- Theorems {lit}`mem_appendNew` and {lit}`nodup_appendNew`: what the list then
  has, and that it stays free of duplicates.
-/

namespace Collections

variable {α : Type*} [DecidableEq α]

/-- The list followed by what is new in the other, in first-occurrence order. -/
def appendNew (kept xs : List α) : List α :=
  kept ++ (xs.filter (· ∉ kept)).eraseDups

@[simp]
theorem appendNew_nil (kept : List α) : appendNew kept [] = kept := by
  simp [appendNew]

/-- One round of the loop that appends what is not there yet. -/
theorem appendNew_cons (kept : List α) (x : α) (xs : List α) :
    appendNew kept (x :: xs) =
      if x ∈ kept then appendNew kept xs else appendNew (kept ++ [x]) xs := by
  split_ifs with hx
  · simp [appendNew, hx]
  · have hfilter : (xs.filter (· ∉ kept)).filter (fun b => !b == x) =
        xs.filter (· ∉ kept ++ [x]) := by
      rw [List.filter_filter]
      congr 1
      funext b
      by_cases hb : b = x <;> simp [hb, hx]
    rw [appendNew, List.filter_cons_of_pos (by simp [hx]), List.eraseDups_cons, hfilter,
      appendNew, List.append_assoc]
    rfl

/-- What was kept stands first. -/
theorem prefix_appendNew (kept xs : List α) : kept <+: appendNew kept xs :=
  List.prefix_append _ _

/-- What is appended joins what was kept. -/
@[simp]
theorem mem_appendNew {a : α} {kept xs : List α} :
    a ∈ appendNew kept xs ↔ a ∈ kept ∨ a ∈ xs := by
  by_cases ha : a ∈ kept <;> simp [appendNew, ha, List.mem_eraseDups]

/-- Erasing duplicates leaves none. -/
theorem nodup_eraseDups : ∀ xs : List α, xs.eraseDups.Nodup
  | [] => by simp
  | x :: xs => by
      rw [List.eraseDups_cons, List.nodup_cons]
      constructor
      · simp [List.mem_eraseDups]
      · exact nodup_eraseDups (xs.filter fun b => !b == x)
termination_by xs => xs.length
decreasing_by
  exact Nat.lt_succ_of_le (List.length_filter_le _ _)

/-- Nothing is appended twice. -/
theorem nodup_appendNew {kept : List α} (hkept : kept.Nodup) (xs : List α) :
    (appendNew kept xs).Nodup := by
  rw [appendNew, List.nodup_append']
  refine ⟨hkept, nodup_eraseDups _, ?_⟩
  intro a ha hnew
  rw [List.mem_eraseDups, List.mem_filter] at hnew
  simp [ha] at hnew

end Collections
