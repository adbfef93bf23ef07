import AioProxmox.Coroutine.Program

/-!
# Coroutines - calls answered by tasks

A task may be written against an interface: its calls are requests to a component that
is itself a task, with a state of its own.  Putting the component in place of the calls
gives a task over both states that makes the component's calls.

Main results:

- Definition {lit}`Co.attempt`: a task and what follows its value or its exception.
- Definition {lit}`Co.beside`: a task on the second of two states.
- Definition {lit}`Co.servedBy`: a task whose calls are answered by tasks.
- Theorems {lit}`Co.exec_attempt`, {lit}`Co.exec_beside` and {lit}`Co.exec_servedBy_await`: the
  runs of each.
-/

namespace Coroutine

variable {τ σ σ' ι ι' ρ ρ' ε ω α β : Type}

namespace Co

/-- Run a task; how it ends selects what follows. -/
def attempt : Co σ ι ρ ε ω α → (Except ε α → Co σ ι ρ ε ω β) → Co σ ι ρ ε ω β
  | done r, f => f r
  | get k, f => get fun s => (k s).attempt f
  | put s k, f => put s (k.attempt f)
  | note e k, f => note e (k.attempt f)
  | call q k, f => call q fun r => (k r).attempt f
  | acquire k, f => acquire (k.attempt f)
  | release k, f => release (k.attempt f)

/-- A task on the second of two states. -/
def beside : Co σ' ι' ρ' ε ω α → Co (σ × σ') ι' ρ' ε ω α
  | done r => done r
  | get k => get fun s => (k s.2).beside
  | put s' k => get fun s => put (s.1, s') k.beside
  | note e k => note e k.beside
  | call q k => call q fun r => (k r).beside
  | acquire k => acquire k.beside
  | release k => release k.beside

/-- A task whose calls are answered by tasks on a state of their own. -/
def servedBy (serve : ι → Co σ' ι' ρ' ε ω α) :
    Co σ ι (Except ε α) ε ω β → Co (σ × σ') ι' ρ' ε ω β
  | done r => done r
  | get k => get fun s => (k s.1).servedBy serve
  | put s k => get fun both => put (s, both.2) (k.servedBy serve)
  | note e k => note e (k.servedBy serve)
  | call q k => (serve q).beside.attempt fun r => (k r).servedBy serve
  | acquire k => acquire (k.servedBy serve)
  | release k => release (k.servedBy serve)

end Co

/-- Surroundings of both states, of which nothing but the second is known. -/
def Surroundings.beside (during : Nat → σ → σ) (E : Surroundings σ' ρ') :
    Surroundings (σ × σ') ρ' where
  during n s := (during n s.1, E.during n s.2)
  reply := E.reply

/-- The world of the second state. -/
def World.second (w : World τ (σ × σ') ι ρ ω) : World τ σ' ι ρ ω where
  state := w.state.2
  history := w.history

namespace Co

section Exec

variable (i : τ) (n : Nat)

/-- Running a task and what follows it. -/
theorem exec_attempt (E : Surroundings σ ρ) (w : World τ σ ι ρ ω) (p : Co σ ι ρ ε ω α)
    (f : Except ε α → Co σ ι ρ ε ω β) :
    (p.attempt f).exec E i n w =
      (f (p.exec E i n w).result).exec E i (p.exec E i n w).calls (p.exec E i n w).world := by
  induction p generalizing n w with
  | done r => rfl
  | get k ih => exact ih w.state n w
  | put s k ih => exact ih n _
  | note e k ih => exact ih n _
  | call q k ih => exact ih (E.reply n) (n + 1) _
  | acquire k ih => exact ih n _
  | release k ih => exact ih n _

/-- A task on the second state runs as it does alone, and leaves the same history. -/
theorem exec_beside (during : Nat → σ → σ) (E : Surroundings σ' ρ') (p : Co σ' ι' ρ' ε ω α)
    (w : World τ (σ × σ') ι' ρ' ω) :
    (p.beside.exec (E.beside during) i n w).result = (p.exec E i n w.second).result ∧
      (p.beside.exec (E.beside during) i n w).calls = (p.exec E i n w.second).calls ∧
      (p.beside.exec (E.beside during) i n w).world.second = (p.exec E i n w.second).world := by
  induction p generalizing n w with
  | done r => exact ⟨rfl, rfl, rfl⟩
  | get k ih => exact ih w.state.2 n w
  | put s k ih => exact ih n _
  | note e k ih => exact ih n (w.log (.noted i e))
  | call q k ih => exact ih (E.reply n) (n + 1) _
  | acquire k ih => exact ih n (w.log (.locked i))
  | release k ih => exact ih n (w.log (.released i))

/-- A task that makes one call and changes the answer runs as the task that serves the call. -/
theorem exec_servedBy_await (during : Nat → σ → σ) (E : Surroundings σ' ρ')
    (serve : ι → Co σ' ι' ρ' ε ω α) (q : ι) (f : α → β) (w : World τ (σ × σ') ι' ρ' ω) :
    ((((await q).bind fun a => done (.ok (f a)) : Co σ ι (Except ε α) ε ω β).servedBy serve).exec
        (E.beside during) i n w).result = ((serve q).exec E i n w.second).result.map f ∧
      ((((await q).bind fun a => done (.ok (f a)) : Co σ ι (Except ε α) ε ω β).servedBy serve).exec
        (E.beside during) i n w).world.history = ((serve q).exec E i n w.second).world.history := by
  rcases exec_beside i n during E (serve q) w with ⟨hresult, -, hworld⟩
  have hhistory := congrArg World.history hworld
  change (((serve q).beside.attempt _).exec (E.beside during) i n w).result = _ ∧
    (((serve q).beside.attempt _).exec (E.beside during) i n w).world.history = _
  rw [exec_attempt, hresult, ← hhistory]
  rcases ((serve q).exec E i n w.second).result with e | a
  · exact ⟨rfl, rfl⟩
  · exact ⟨rfl, rfl⟩

end Exec

end Co

end Coroutine
