import AioProxmox.Coroutine.Program
import Mathlib.Logic.Function.Basic

/-!
# Coroutines - interleaved tasks

Any family of tasks over one shared state and one lock.  A scheduler starts
tasks, delivers answers to the calls they wait for and hands the free lock to a
task waiting for it; each such action runs the chosen task up to its next
suspension point.  Between two actions the environment may change the shared
state.

Nothing is assumed of the order in which waiting tasks get the lock, so every
queueing policy is covered.

Main results:

- Definition {lit}`Config.step` and {lit}`Config.run`: one scheduler action and
  a whole schedule, both executable.
- Theorem {lit}`Config.step_cases`: the four things a step can be.
- Theorem {lit}`Config.Reaches.invariant`: what every permitted step preserves
  holds of everything reached.
-/

namespace Coroutine

variable {τ σ ι ρ ε ω α : Type}

/-- A task of the pool: not started yet, or stopped at a suspension point. -/
inductive Thread (σ ι ρ ε ω α : Type) where
  | fresh (p : Co σ ι ρ ε ω α)
  | parked (p : Co σ ι ρ ε ω α)

/-- The world, the task holding the lock, and all tasks. -/
structure Config (τ σ ι ρ ε ω α : Type) where
  world : World τ σ ι ρ ω
  holder : Option τ
  pool : τ → Thread σ ι ρ ε ω α

/-- What the scheduler or the environment may do next. -/
inductive Action (τ σ ρ : Type) where
  | start (i : τ)
  | resume (i : τ) (r : ρ)
  | lock (i : τ)
  | environment (f : σ → σ)

namespace Co

/-- Run task {lit}`i` up to its next suspension point.  The flag says whether it
holds the lock. -/
def advance (i : τ) :
    Co σ ι ρ ε ω α → Bool → World τ σ ι ρ ω →
      Co σ ι ρ ε ω α × Bool × World τ σ ι ρ ω
  | done r, h, w => (done r, h, w)
  | get k, h, w => (k w.state).advance i h w
  | put s k, h, w => k.advance i h { w with state := s }
  | note e k, h, w => k.advance i h (w.log (.noted i e))
  | call q k, h, w => (call q k, h, w.log (.sent i q))
  | acquire k, h, w => (acquire k, h, w)
  | release k, _, w => k.advance i false (w.log (.released i))

section Advance

variable {β : Type} {i : τ} {h h' : Bool} {w w' : World τ σ ι ρ ω} {p : Co σ ι ρ ε ω α}

/-- Where the first part of a sequence returns without being suspended, the selected part
runs on. -/
theorem advance_bind_ok {a : α} (hp : p.advance i h w = (done (.ok a), h', w'))
    (f : α → Co σ ι ρ ε ω β) : (p >>= f).advance i h w = (f a).advance i h' w' := by
  change (p.bind f).advance i h w = _
  induction p generalizing h w with
  | done r =>
      cases hp
      rfl
  | get k ih => exact ih w.state hp
  | put s k ih => exact ih hp
  | note e k ih => exact ih hp
  | call q k ih => cases hp
  | acquire k ih => cases hp
  | release k ih => exact ih hp

end Advance

end Co

namespace Config

/-- The pool before anybody has started, the lock being free. -/
def initial (s : σ) (tasks : τ → Co σ ι ρ ε ω α) : Config τ σ ι ρ ε ω α where
  world := ⟨s, []⟩
  holder := none
  pool i := .fresh (tasks i)

/-- How task {lit}`i` ended, if it has. -/
def result (c : Config τ σ ι ρ ε ω α) (i : τ) : Option (Except ε α) :=
  match c.pool i with
  | .parked (.done r) => some r
  | _ => none

variable [DecidableEq τ]

/-- Let task {lit}`i` run {lit}`p` up to its next suspension point. -/
def advanceTask (c : Config τ σ ι ρ ε ω α) (i : τ) (p : Co σ ι ρ ε ω α) (h : Bool)
    (w : World τ σ ι ρ ω) : Config τ σ ι ρ ε ω α where
  world := (p.advance i h w).2.2
  holder := if h then (if (p.advance i h w).2.1 then some i else none) else c.holder
  pool := Function.update c.pool i (.parked (p.advance i h w).1)

@[simp]
theorem advanceTask_pool_self (c : Config τ σ ι ρ ε ω α) (i : τ) (p : Co σ ι ρ ε ω α)
    (h : Bool) (w : World τ σ ι ρ ω) :
    (c.advanceTask i p h w).pool i = .parked (p.advance i h w).1 := by
  simp [advanceTask]

@[simp]
theorem advanceTask_pool_of_ne (c : Config τ σ ι ρ ε ω α) {i j : τ} (hij : j ≠ i)
    (p : Co σ ι ρ ε ω α) (h : Bool) (w : World τ σ ι ρ ω) :
    (c.advanceTask i p h w).pool j = c.pool j := by
  simp [advanceTask, hij]

/-- One action, where it is possible. -/
def step (c : Config τ σ ι ρ ε ω α) : Action τ σ ρ → Option (Config τ σ ι ρ ε ω α)
  | .start i =>
      match c.pool i with
      | .fresh p => some (c.advanceTask i p false c.world)
      | _ => none
  | .resume i r =>
      match c.pool i with
      | .parked (.call q k) =>
          some (c.advanceTask i (k r) (c.holder = some i) (c.world.log (.got i q r)))
      | _ => none
  | .lock i =>
      match c.pool i, c.holder with
      | .parked (.acquire k), none =>
          some (c.advanceTask i k true (c.world.log (.locked i)))
      | _, _ => none
  | .environment f =>
      some { c with world := { c.world with state := f c.world.state } }

/-- A whole schedule, where each of its actions is possible. -/
def run (c : Config τ σ ι ρ ε ω α) : List (Action τ σ ρ) → Option (Config τ σ ι ρ ε ω α)
  | [] => some c
  | a :: as => (c.step a).bind fun c' => c'.run as

/-- Everything a step can be. -/
theorem step_cases {c c' : Config τ σ ι ρ ε ω α} {a : Action τ σ ρ}
    (hstep : c.step a = some c') :
    (∃ i p, a = .start i ∧ c.pool i = .fresh p ∧
        c' = c.advanceTask i p false c.world) ∨
      (∃ i r q k, a = .resume i r ∧ c.pool i = .parked (.call q k) ∧
        c' = c.advanceTask i (k r) (c.holder = some i) (c.world.log (.got i q r))) ∨
      (∃ i k, a = .lock i ∧ c.pool i = .parked (.acquire k) ∧ c.holder = none ∧
        c' = c.advanceTask i k true (c.world.log (.locked i))) ∨
      (∃ f, a = .environment f ∧
        c' = { c with world := { c.world with state := f c.world.state } }) := by
  cases a with
  | start i =>
      left
      simp only [step] at hstep
      split at hstep
      · rename_i p hp
        exact ⟨i, p, rfl, hp, (Option.some.inj hstep).symm⟩
      · contradiction
  | resume i r =>
      right; left
      simp only [step] at hstep
      split at hstep
      · rename_i q k hp
        exact ⟨i, r, q, k, rfl, hp, (Option.some.inj hstep).symm⟩
      · contradiction
  | lock i =>
      right; right; left
      simp only [step] at hstep
      split at hstep
      · rename_i k hp hfree
        exact ⟨i, k, rfl, hp, hfree, (Option.some.inj hstep).symm⟩
      · contradiction
  | environment f =>
      right; right; right
      exact ⟨f, rfl, (Option.some.inj hstep).symm⟩

/-- Only the scheduler acts. -/
def SchedulerOnly (_ : Config τ σ ι ρ ε ω α) (a : Action τ σ ρ) : Prop :=
  ∀ f, a ≠ .environment f

/-- The configurations reached by schedules all of whose actions are permitted
where they are taken. -/
inductive Reaches (permit : Config τ σ ι ρ ε ω α → Action τ σ ρ → Prop) :
    Config τ σ ι ρ ε ω α → Config τ σ ι ρ ε ω α → Prop where
  | refl (c : Config τ σ ι ρ ε ω α) : Reaches permit c c
  | tail {c d e : Config τ σ ι ρ ε ω α} {a : Action τ σ ρ} :
      Reaches permit c d → permit d a → d.step a = some e → Reaches permit c e

section Reaches

variable {permit : Config τ σ ι ρ ε ω α → Action τ σ ρ → Prop}
  {c d e : Config τ σ ι ρ ε ω α}

/-- A run may begin one step earlier. -/
theorem Reaches.head {a : Action τ σ ρ} (hpermit : permit c a) (hstep : c.step a = some d)
    (hrun : Reaches permit d e) : Reaches permit c e := by
  induction hrun with
  | refl => exact .tail (.refl c) hpermit hstep
  | tail _ hp hs ih => exact .tail ih hp hs

/-- Runs may be put together. -/
theorem Reaches.trans (h₁ : Reaches permit c d) (h₂ : Reaches permit d e) :
    Reaches permit c e := by
  induction h₂ with
  | refl => exact h₁
  | tail _ hp hs ih => exact .tail ih hp hs

/-- A schedule of permitted actions reaches the configuration it computes. -/
theorem reaches_of_run {as : List (Action τ σ ρ)} (hpermit : ∀ c, ∀ a ∈ as, permit c a)
    (hrun : c.run as = some d) : Reaches permit c d := by
  induction as generalizing c with
  | nil =>
      cases hrun
      exact .refl _
  | cons a as ih =>
      simp only [run, Option.bind_eq_some_iff] at hrun
      obtain ⟨c', hstep, hrest⟩ := hrun
      exact .head (hpermit _ a (by simp)) hstep
        (ih (fun c b hb => hpermit c b (List.mem_cons_of_mem a hb)) hrest)

/-- What every permitted step preserves holds of everything reached. -/
theorem Reaches.invariant {I : Config τ σ ι ρ ε ω α → Prop}
    (hstep : ∀ c a c', permit c a → c.step a = some c' → I c → I c')
    (hrun : Reaches permit c d) (hinit : I c) : I d := by
  induction hrun with
  | refl => exact hinit
  | tail _ hp hs ih => exact hstep _ _ _ hp hs ih

end Reaches

end Config

end Coroutine
