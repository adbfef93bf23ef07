import AioProxmox.Coroutine.Program
import Mathlib.Order.Defs.Unbundled

/-!
# Coroutines - what a run leaves alone

A task keeps a relation when the shared state before and after each of its runs
are related, in given surroundings.  For a reflexive and transitive relation
this is checked on the parts of the task, so a frame condition of a long task
follows its text.

Main results:

- Theorems {lit}`Keeps.bind` and {lit}`Keeps.tryCatch`: composite tasks keep what
  their parts keep.
- Theorems {lit}`Keeps.modify` and {lit}`Keeps.await`: the only places where the
  state changes.
-/

namespace Coroutine

variable {τ σ ι ρ ε ω α β : Type}

/-- Every run of the task relates the state before it to the state after it. -/
def Keeps (E : Surroundings σ ρ) (i : τ) (R : σ → σ → Prop) (p : Co σ ι ρ ε ω α) : Prop :=
  ∀ n (w : World τ σ ι ρ ω), R w.state (p.exec E i n w).world.state

/-- Two states in which a part of the state is the same. -/
def Unchanged (f : σ → β) (s s' : σ) : Prop :=
  f s' = f s

instance (f : σ → β) : Std.Refl (Unchanged f) where
  refl _ := rfl

instance (f : σ → β) : IsTrans σ (Unchanged f) where
  trans _ _ _ h₁ h₂ := Eq.trans h₂ h₁

namespace Keeps

/-- What keeps a part of the state keeps what is computed from that part. -/
theorem unchanged_comp {γ : Type} {E : Surroundings σ ρ} {i : τ} {f : σ → β} (g : β → γ)
    {p : Co σ ι ρ ε ω α} (hp : Keeps E i (Unchanged f) p) :
    Keeps E i (Unchanged fun s => g (f s)) p :=
  fun n w => congrArg g (hp n w)

/-- What keeps a relation keeps a weaker one. -/
theorem mono {E : Surroundings σ ρ} {i : τ} {R R' : σ → σ → Prop} {p : Co σ ι ρ ε ω α}
    (hp : Keeps E i R p) (h : ∀ s s', R s s' → R' s s') : Keeps E i R' p :=
  fun n w => h _ _ (hp n w)

section Atoms

variable {E : Surroundings σ ρ} {i : τ} {R : σ → σ → Prop}

/-- A value leaves the state as it is. -/
theorem pure [Std.Refl R] (a : α) : Keeps E i R (Pure.pure a : Co σ ι ρ ε ω α) :=
  fun _ w => refl_of R w.state

/-- An exception leaves the state as it is. -/
theorem throw [Std.Refl R] (e : ε) : Keeps E i R (MonadExcept.throw e : Co σ ι ρ ε ω α) :=
  fun _ w => refl_of R w.state

/-- A result that is known beforehand leaves the state as it is. -/
theorem ofExcept [Std.Refl R] (r : Except ε α) : Keeps E i R (Co.ofExcept r : Co σ ι ρ ε ω α) :=
  fun _ w => refl_of R w.state

/-- Reading the state leaves it as it is. -/
theorem state [Std.Refl R] : Keeps E i R (Co.state : Co σ ι ρ ε ω σ) :=
  fun _ w => refl_of R w.state

/-- A remark leaves the state as it is. -/
theorem remark [Std.Refl R] (e : ω) : Keeps E i R (Co.remark e : Co σ ι ρ ε ω Unit) :=
  fun _ w => refl_of R w.state

/-- An assignment leaves it related if the assignment does. -/
theorem modify {f : σ → σ} (h : ∀ s, R s (f s)) :
    Keeps E i R (Co.modify f : Co σ ι ρ ε ω Unit) :=
  fun _ w => h w.state

end Atoms

/-- A call leaves it related if the surroundings do meanwhile. -/
theorem await {E : Surroundings σ (Except ε α)} {i : τ} {R : σ → σ → Prop} {q : ι}
    (h : ∀ n s, R s (E.during n s)) :
    Keeps E i R (Co.await q : Co σ ι (Except ε α) ε ω α) :=
  fun n w => h n w.state

section Composite

variable {E : Surroundings σ ρ} {i : τ} {R : σ → σ → Prop} [IsTrans σ R]

/-- Two steps leave it related where each does and the relation is transitive. -/
theorem bind {p : Co σ ι ρ ε ω α} {f : α → Co σ ι ρ ε ω β} (hp : Keeps E i R p)
    (hf : ∀ a, Keeps E i R (f a)) : Keeps E i R (p >>= f) := by
  intro n w
  have hfirst := hp n w
  rw [Co.exec_bind]
  rcases hrun : p.exec E i n w with ⟨a | e, n', w'⟩
  · rw [hrun] at hfirst
    exact hfirst
  · rw [hrun] at hfirst
    exact trans_of R hfirst (hf e n' w')

/-- A task with its handler leaves it related where both do. -/
theorem tryCatch {p : Co σ ι ρ ε ω α} {f : ε → Co σ ι ρ ε ω α} (hp : Keeps E i R p)
    (hf : ∀ e, Keeps E i R (f e)) : Keeps E i R (MonadExcept.tryCatch p f) := by
  intro n w
  have hfirst := hp n w
  rw [Co.exec_tryCatch]
  rcases hrun : p.exec E i n w with ⟨e | a, n', w'⟩
  · rw [hrun] at hfirst
    exact trans_of R hfirst (hf e n' w')
  · rw [hrun] at hfirst
    exact hfirst

end Composite

/-- The lock leaves the state alone. -/
theorem withLock {E : Surroundings σ ρ} {i : τ} {R : σ → σ → Prop} {p : Co σ ι ρ ε ω α}
    (hp : Keeps E i R p) : Keeps E i R p.withLock := by
  intro n w
  have hbody := hp n (w.log (.locked i))
  rw [Co.exec_withLock]
  exact hbody

end Keeps

end Coroutine
