import Mathlib.Data.List.Rotate
import Mathlib.Data.List.Nodup

/-!
# Collections - searching a list in cyclic order

The elements that follow a position in cyclic order, each once and the position
itself left out, and how a loop over offsets modulo the length visits them.

Main results:

- Theorem {lit}`map_offsets_eq_cyclicAfter`: the offsets from one to the length
  visit exactly the elements that follow, in order.
- Theorem {lit}`mem_cyclicAfter`: without duplicates these are all others.
- Definition {lit}`firstAfter`: what a search in cyclic order finds.
-/

namespace Collections

variable {α : Type*}

/-- The elements after position {lit}`i` in cyclic order. -/
def cyclicAfter (xs : List α) (i : Nat) : List α :=
  (xs.rotate i).tail

/-- The position reached from {lit}`i` by an offset, modulo the length. -/
def cyclicIndex (xs : List α) (i offset : Nat) : Nat :=
  (i + offset) % xs.length

/-- Rotating brings a position in range to the front. -/
theorem rotate_eq_cons {xs : List α} {i : Nat} (hi : i < xs.length) :
    xs.rotate i = xs[i] :: cyclicAfter xs i := by
  have hne : xs.rotate i ≠ [] := by
    rw [ne_eq, List.rotate_eq_nil_iff]
    rintro rfl
    simp at hi
  have hhead : (xs.rotate i).head? = some xs[i] := by
    rw [List.head?_rotate hi, List.getElem?_eq_getElem hi]
  rw [cyclicAfter, ← List.cons_head_tail hne]
  simp only [List.head?_eq_some_head hne, Option.some.injEq] at hhead
  rw [hhead, List.tail_cons]

/-- All elements but one come after an index. -/
@[simp]
theorem length_cyclicAfter (xs : List α) (i : Nat) :
    (cyclicAfter xs i).length = xs.length - 1 := by
  simp [cyclicAfter]

/-- The element at a place of the cyclic order is found at the offset one
beyond. -/
theorem getElem?_cyclicAfter {xs : List α} {i k : Nat} (hk : k + 1 < xs.length) :
    (cyclicAfter xs i)[k]? = xs[cyclicIndex xs i (k + 1)]? := by
  rw [cyclicAfter, List.getElem?_tail, List.getElem?_rotate hk, cyclicIndex, Nat.add_comm]

/-- The loop over the offsets visits the elements that follow, in order. -/
theorem map_offsets_eq_cyclicAfter (xs : List α) (i : Nat) :
    (List.range' 1 (xs.length - 1)).map (fun offset => xs[cyclicIndex xs i offset]?) =
      (cyclicAfter xs i).map some := by
  apply List.ext_getElem?
  intro k
  by_cases hk : k < xs.length - 1
  · have hget : (cyclicAfter xs i)[k]? = xs[cyclicIndex xs i (k + 1)]? :=
      getElem?_cyclicAfter (by omega)
    have hsome : k < (cyclicAfter xs i).length := by simpa using hk
    rw [List.getElem?_map, List.getElem?_map, List.getElem?_range' hk, Nat.one_mul,
      Nat.add_comm 1 k, Option.map_some, ← hget, List.getElem?_eq_getElem hsome,
      Option.map_some]
  · rw [List.getElem?_eq_none (by simpa using hk), List.getElem?_eq_none (by simpa using hk)]

/-- Without duplicates, the elements that follow are all the others. -/
theorem mem_cyclicAfter {xs : List α} (hxs : xs.Nodup) {i : Nat} (hi : i < xs.length)
    {a : α} : a ∈ cyclicAfter xs i ↔ a ∈ xs ∧ a ≠ xs[i] := by
  have hnodup : (xs[i] :: cyclicAfter xs i).Nodup := by
    rw [← rotate_eq_cons hi]
    exact List.nodup_rotate.mpr hxs
  have hmem : a ∈ xs ↔ a ∈ xs[i] :: cyclicAfter xs i := by
    rw [← rotate_eq_cons hi, List.mem_rotate]
  rw [hmem, List.mem_cons]
  constructor
  · intro ha
    refine ⟨.inr ha, ?_⟩
    rintro rfl
    exact (List.nodup_cons.mp hnodup).1 ha
  · rintro ⟨h | h, hne⟩
    · exact absurd h hne
    · exact h

/-- The first element after position {lit}`i` in cyclic order that is accepted. -/
def firstAfter (accept : α → Bool) (xs : List α) (i : Nat) : Option α :=
  (cyclicAfter xs i).find? accept

/-- What comes after an index of distinct elements is another one. -/
theorem firstAfter_ne {accept : α → Bool} {xs : List α} (hxs : xs.Nodup) {i : Nat}
    (hi : i < xs.length) {a : α} (h : firstAfter accept xs i = some a) : a ≠ xs[i] :=
  ((mem_cyclicAfter hxs hi).mp (List.mem_of_find?_eq_some h)).2

end Collections
