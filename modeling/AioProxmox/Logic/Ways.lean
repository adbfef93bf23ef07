import Mathlib.Data.List.Basic

/-!
# Logic - ways to be let in

What is asked for as a list of ways, each a list of things of which all have to be
granted: a monotone disjunctive normal form.

Main results:

- Definition {lit}`Open`: some way is granted as a whole.
- Theorem {lit}`forall_open_imp_iff`: what opens one list of ways opens another exactly
  if each way of the first includes one of the second.
-/

namespace Ways

variable {α : Type*} {granted : α → Prop} {ways ways' : List (List α)}

/-- Some way is granted as a whole. -/
def Open (granted : α → Prop) (ways : List (List α)) : Prop :=
  ∃ way ∈ ways, ∀ a ∈ way, granted a

/-- All of some things is one way. -/
theorem open_all (things : List α) : Open granted [things] ↔ ∀ a ∈ things, granted a := by
  simp [Open]

/-- A way is open among the ways of some item. -/
theorem open_flatMap {β : Type*} (items : List β) (waysOf : β → List (List α)) :
    Open granted (items.flatMap waysOf) ↔ ∃ item ∈ items, Open granted (waysOf item) := by
  constructor
  · rintro ⟨way, hway, hall⟩
    rcases List.mem_flatMap.mp hway with ⟨item, hitem, hway⟩
    exact ⟨item, hitem, way, hway, hall⟩
  · rintro ⟨item, hitem, way, hway, hall⟩
    exact ⟨way, List.mem_flatMap.mpr ⟨item, hitem, hway⟩, hall⟩

/-- What opens one list of ways opens another exactly if each way of the first includes
one of the second. -/
theorem forall_open_imp_iff :
    (∀ granted : α → Prop, Open granted ways → Open granted ways') ↔
      ∀ way ∈ ways, ∃ way' ∈ ways', way' ⊆ way := by
  constructor
  · intro h way hway
    rcases h (· ∈ way) ⟨way, hway, fun _ ha => ha⟩ with ⟨way', hway', hall⟩
    exact ⟨way', hway', hall⟩
  · rintro h granted ⟨way, hway, hall⟩
    rcases h way hway with ⟨way', hway', hsubset⟩
    exact ⟨way', hway', fun a ha => hall a (hsubset ha)⟩

end Ways
