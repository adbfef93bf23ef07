import Mathlib.Data.List.Basic

/-!
# Collections - loops over a list

A loop over a list that carries a state, and one that may end with an error.

Main results:

- Theorem {lit}`foldl_iff`: what is there after a loop was there before or came with an
  element.
- Theorem {lit}`foldlM_invariant`: what one turn keeps, the loop keeps.
- Theorem {lit}`foldlM_isOk_iff`: a loop whose turns raise by their element alone ends
  exactly if no element raises.
- Theorem {lit}`foldlM_eq_unlessRaised`: such a loop raises what its first element to
  raise does, and is a plain loop where none does.
- Theorems {lit}`foldlM_filter_of_skip` and {lit}`foldlM_forall₂`: elements without effect
  can be left out, and those of the same effect exchanged.
-/

namespace Collections

variable {α σ ε : Type*} {step : σ → α → Except ε σ} {s s' : σ} {xs ys done : List α}

/-- Where a turn leaves what is there and adds what belongs to its element, so does the loop. -/
theorem foldl_iff (holds : σ → Prop) (adds : α → Prop) {turn : σ → α → σ}
    (hturn : ∀ s a, holds (turn s a) ↔ holds s ∨ adds a) (s : σ) (xs : List α) :
    holds (xs.foldl turn s) ↔ holds s ∨ ∃ a ∈ xs, adds a := by
  induction xs generalizing s with
  | nil => simp
  | cons a rest ih =>
      rw [List.foldl_cons, ih, hturn, or_assoc]
      simp

/-- A loop goes on from the state its first turn leaves. -/
theorem foldlM_cons_eq_ok {a : α} :
    (a :: xs).foldlM step s = .ok s' ↔ ∃ t, step s a = .ok t ∧ xs.foldlM step t = .ok s' := by
  rw [List.foldlM_cons]
  cases step s a with
  | error e => simp [bind, Except.bind]
  | ok t => simp [bind, Except.bind]

/-- What holds of the elements done and the state, and is kept by one turn, holds after
the loop. -/
theorem foldlM_invariant (inv : List α → σ → Prop)
    (hstep : ∀ done s a s', inv done s → step s a = .ok s' → inv (done ++ [a]) s')
    (h : inv done s) (hloop : xs.foldlM step s = .ok s') : inv (done ++ xs) s' := by
  induction xs generalizing s done with
  | nil =>
      cases hloop
      rw [List.append_nil]
      exact h
  | cons a rest ih =>
      rcases foldlM_cons_eq_ok.mp hloop with ⟨t, hturn, hrest⟩
      rw [List.append_cons]
      exact ih (hstep done s a t h hturn) hrest

/-- Where it depends on the element alone whether a turn raises, the loop ends exactly if
none does. -/
theorem foldlM_isOk_iff {ok : α → Prop} (hstep : ∀ s a, (∃ s', step s a = .ok s') ↔ ok a)
    (s : σ) (xs : List α) : (∃ s', xs.foldlM step s = .ok s') ↔ ∀ a ∈ xs, ok a := by
  induction xs generalizing s with
  | nil => exact iff_of_true ⟨s, rfl⟩ (by simp)
  | cons a rest ih =>
      rw [List.forall_mem_cons, ← hstep s a]
      constructor
      · rintro ⟨s', hloop⟩
        rcases foldlM_cons_eq_ok.mp hloop with ⟨t, hturn, hrest⟩
        exact ⟨⟨t, hturn⟩, (ih t).mp ⟨s', hrest⟩⟩
      · rintro ⟨⟨t, hturn⟩, hall⟩
        rcases (ih t).mpr hall with ⟨s', hrest⟩
        exact ⟨s', foldlM_cons_eq_ok.mpr ⟨t, hturn, hrest⟩⟩

/-- The value, unless something has been raised. -/
def unlessRaised (raised : Option ε) (value : σ) : Except ε σ :=
  match raised with
  | some e => .error e
  | none => .ok value

@[simp]
theorem unlessRaised_none (value : σ) : unlessRaised (none : Option ε) value = .ok value :=
  rfl

@[simp]
theorem unlessRaised_some (e : ε) (value : σ) : unlessRaised (some e) value = .error e :=
  rfl

/-- A loop whose turns raise by their element alone raises what the first one to raise does. -/
theorem foldlM_eq_unlessRaised {raises : α → Option ε} {turn : σ → α → σ}
    (hstep : ∀ s a, step s a = unlessRaised (raises a) (turn s a)) (s : σ) (xs : List α) :
    xs.foldlM step s = unlessRaised (xs.findSome? raises) (xs.foldl turn s) := by
  induction xs generalizing s with
  | nil => rfl
  | cons a rest ih =>
      rw [List.foldlM_cons, hstep, List.findSome?_cons, List.foldl_cons]
      cases raises a with
      | some e => rfl
      | none => exact ih (turn s a)

/-- Elements that leave the state alone can be left out. -/
theorem foldlM_filter_of_skip {p : α → Bool} (hskip : ∀ s a, p a = false → step s a = .ok s)
    (s : σ) (xs : List α) : (xs.filter p).foldlM step s = xs.foldlM step s := by
  induction xs generalizing s with
  | nil => rfl
  | cons a rest ih =>
      cases hp : p a with
      | true =>
          rw [List.filter_cons_of_pos hp, List.foldlM_cons, List.foldlM_cons]
          cases step s a with
          | error e => rfl
          | ok t => exact ih t
      | false =>
          rw [List.filter_cons_of_neg (by simp [hp]), List.foldlM_cons, hskip s a hp]
          exact ih s

/-- Elements that do the same can be exchanged. -/
theorem foldlM_forall₂ {R : α → α → Prop} (hsame : ∀ s a b, R a b → step s a = step s b)
    (h : List.Forall₂ R xs ys) (s : σ) : xs.foldlM step s = ys.foldlM step s := by
  induction h generalizing s with
  | nil => rfl
  | cons hab hrest ih =>
      rw [List.foldlM_cons, List.foldlM_cons, hsame s _ _ hab]
      congr 1
      funext t
      exact ih t

end Collections
