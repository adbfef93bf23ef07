import Mathlib.Algebra.GroupWithZero.Nat
import Mathlib.Logic.Relation

/-!
# Collections - walking a forest

What stands at the roots of a forest or anywhere below them, and the walk level by level: a
queue from which the first element is taken while its children join the end.

Main results:

- Definition {lit}`Below`: what a forest holds.
- Structure {lit}`Descent`: children on which a walk comes to an end.
- Theorem {lit}`below_cons_iff`: a root, what is below it, and the rest.
- Theorem {lit}`mem_walk_iff`: the walk meets just what the forest holds.
-/

namespace Collections

variable {α : Type*}

/-- An element is one of the roots or reached from one by steps to a child. -/
def Below (children : α → List α) (roots : List α) (a : α) : Prop :=
  ∃ root ∈ roots, Relation.ReflTransGen (fun parent child => child ∈ children parent) root a

section Below

variable {children : α → List α} {roots rest : List α} {root a : α}

theorem not_below_nil : ¬ Below children [] a := by
  rintro ⟨root, hroot, -⟩
  contradiction

/-- In either of two forests. -/
theorem below_append_iff :
    Below children (roots ++ rest) a ↔ Below children roots a ∨ Below children rest a := by
  constructor
  · rintro ⟨root, hroot, hbelow⟩
    rcases List.mem_append.mp hroot with hroot | hroot
    · exact .inl ⟨root, hroot, hbelow⟩
    · exact .inr ⟨root, hroot, hbelow⟩
  · rintro (⟨root, hroot, hbelow⟩ | ⟨root, hroot, hbelow⟩)
    · exact ⟨root, List.mem_append_left rest hroot, hbelow⟩
    · exact ⟨root, List.mem_append_right roots hroot, hbelow⟩

/-- At a root or in the forest of its children. -/
theorem below_singleton_iff :
    Below children [root] a ↔ a = root ∨ Below children (children root) a := by
  constructor
  · rintro ⟨root', hroot, hbelow⟩
    rw [List.mem_singleton] at hroot
    subst hroot
    rcases Relation.ReflTransGen.cases_head hbelow with rfl | ⟨child, hchild, hrest⟩
    · exact .inl rfl
    · exact .inr ⟨child, hchild, hrest⟩
  · rintro (rfl | ⟨child, hchild, hbelow⟩)
    · exact ⟨a, List.mem_singleton_self a, .refl⟩
    · exact ⟨root, List.mem_singleton_self root, .head hchild hbelow⟩

/-- What is below a queue is its first element, below that, or below the rest. -/
theorem below_cons_iff :
    Below children (root :: rest) a ↔
      a = root ∨ Below children (children root) a ∨ Below children rest a := by
  rw [← List.singleton_append, below_append_iff, below_singleton_iff, or_assoc]

end Below

/-! ## The walk -/

/-- Children of each element that are smaller together than it is, by some measure. -/
structure Descent (α : Type*) where
  children : α → List α
  bounded : ∃ size : α → Nat, ∀ a, ((children a).map size).sum < size a

namespace Descent

variable {d : Descent α}

/-- The measure. -/
noncomputable def size (d : Descent α) : α → Nat :=
  d.bounded.choose

/-- The children are smaller than their parent, all of them together. -/
theorem sum_size_children (a : α) : ((d.children a).map d.size).sum < d.size a :=
  d.bounded.choose_spec a

/-- Take the first element of the queue and put its children at the end, until nothing is
left. -/
def walk (d : Descent α) : List α → List α
  | [] => []
  | a :: queue => a :: walk d (queue ++ d.children a)
termination_by queue => (queue.map d.size).sum
decreasing_by
  have hsmaller := sum_size_children (d := d) a
  simp only [List.map_append, List.sum_append, List.map_cons, List.sum_cons]
  omega

@[simp]
theorem walk_nil : d.walk [] = [] := by
  rw [walk]

/-- The children of the first element join the end of the queue. -/
theorem walk_cons (a : α) (queue : List α) :
    d.walk (a :: queue) = a :: d.walk (queue ++ d.children a) := by
  rw [walk]

/-- The walk meets all of the forest and nothing else. -/
theorem mem_walk_iff {queue : List α} {a : α} :
    a ∈ d.walk queue ↔ Below d.children queue a := by
  induction queue using walk.induct d with
  | case1 =>
      rw [walk_nil]
      exact iff_of_false List.not_mem_nil not_below_nil
  | case2 root queue ih =>
      rw [walk_cons, List.mem_cons, ih, below_append_iff, below_cons_iff]
      exact or_congr_right or_comm

end Descent

end Collections
