import AioProxmox.Coroutine.Program

/-!
# Coroutines - what a task can leave and raise

Two bounds read off the text of a task, whatever its surroundings do: the events
it can leave in the history, and the exceptions it can end in when the answers to
its calls are of a given kind.  A third one is about a run: an answer of another
kind ends it in an exception that no clause of the task stops.

Main results:

- Theorem {lit}`Leaves.exec`: a run only adds events of the kind bounded.
- Theorem {lit}`Raises.exec`: a run answered as assumed only ends in exceptions
  of the kind bounded.
- Theorem {lit}`LetsOut.allGot`: a run that lets nothing out was answered as
  assumed.
-/

namespace Coroutine

variable {τ σ ι ρ ε ω α β : Type}

namespace Co

/-! ## Events -/

/-- All events that task {lit}`i` can leave satisfy {lit}`P`. -/
def Leaves (i : τ) (P : Event τ ι ρ ω → Prop) : Co σ ι ρ ε ω α → Prop
  | done _ => True
  | get k => ∀ s, (k s).Leaves i P
  | put _ k => k.Leaves i P
  | note e k => P (.noted i e) ∧ k.Leaves i P
  | call q k => P (.sent i q) ∧ ∀ r, P (.got i q r) ∧ (k r).Leaves i P
  | acquire k => P (.locked i) ∧ k.Leaves i P
  | release k => P (.released i) ∧ k.Leaves i P

namespace Leaves

variable {i : τ} {P : Event τ ι ρ ω → Prop}

/-- A value leaves no event. -/
theorem pure (a : α) : Leaves i P (Pure.pure a : Co σ ι ρ ε ω α) :=
  trivial

/-- An exception leaves no event. -/
theorem throw (e : ε) : Leaves i P (MonadExcept.throw e : Co σ ι ρ ε ω α) :=
  trivial

/-- A result that is known beforehand leaves no event. -/
theorem ofExcept (r : Except ε α) : Leaves i P (Co.ofExcept r : Co σ ι ρ ε ω α) :=
  trivial

/-- Reading the state leaves no event. -/
theorem state : Leaves i P (Co.state : Co σ ι ρ ε ω σ) :=
  fun _ => trivial

/-- An assignment leaves no event. -/
theorem modify (f : σ → σ) : Leaves i P (Co.modify f : Co σ ι ρ ε ω Unit) :=
  fun _ => trivial

/-- A remark leaves itself. -/
theorem remark {e : ω} (h : P (.noted i e)) : Leaves i P (Co.remark e : Co σ ι ρ ε ω Unit) :=
  ⟨h, trivial⟩

/-- A call leaves that it was sent, and its answer. -/
theorem await {P : Event τ ι (Except ε α) ω → Prop} {q : ι} (hsent : P (.sent i q))
    (hgot : ∀ r, P (.got i q r)) : Leaves i P (Co.await q : Co σ ι (Except ε α) ε ω α) :=
  ⟨hsent, fun r => ⟨hgot r, trivial⟩⟩

/-- A sequence leaves what its parts leave. -/
theorem bind {p : Co σ ι ρ ε ω α} {f : α → Co σ ι ρ ε ω β} (hp : Leaves i P p)
    (hf : ∀ a, Leaves i P (f a)) : Leaves i P (p >>= f) := by
  change Leaves i P (p.bind f)
  induction p with
  | done r =>
      cases r with
      | ok a => exact hf a
      | error e => exact trivial
  | get k ih => exact fun s => ih s (hp s)
  | put s k ih => exact ih hp
  | note e k ih => exact ⟨hp.1, ih hp.2⟩
  | call q k ih => exact ⟨hp.1, fun r => ⟨(hp.2 r).1, ih r (hp.2 r).2⟩⟩
  | acquire k ih => exact ⟨hp.1, ih hp.2⟩
  | release k ih => exact ⟨hp.1, ih hp.2⟩

/-- What follows a value may use where the value comes from. -/
theorem ofExcept_bind {r : Except ε α} {f : α → Co σ ι ρ ε ω β}
    (hf : ∀ a, r = .ok a → Leaves i P (f a)) : Leaves i P (Co.ofExcept r >>= f) := by
  cases r with
  | ok a => exact hf a rfl
  | error e => exact trivial

/-- A task and its handler leave what they both leave. -/
theorem tryCatch {p : Co σ ι ρ ε ω α} {f : ε → Co σ ι ρ ε ω α} (hp : Leaves i P p)
    (hf : ∀ e, Leaves i P (f e)) : Leaves i P (MonadExcept.tryCatch p f) := by
  change Leaves i P (p.handle f)
  induction p with
  | done r =>
      cases r with
      | ok a => exact trivial
      | error e => exact hf e
  | get k ih => exact fun s => ih s (hp s)
  | put s k ih => exact ih hp
  | note e k ih => exact ⟨hp.1, ih hp.2⟩
  | call q k ih => exact ⟨hp.1, fun r => ⟨(hp.2 r).1, ih r (hp.2 r).2⟩⟩
  | acquire k ih => exact ⟨hp.1, ih hp.2⟩
  | release k ih => exact ⟨hp.1, ih hp.2⟩

/-- Under the lock two more events are left. -/
theorem withLock {p : Co σ ι ρ ε ω α} (hp : Leaves i P p) (hlocked : P (.locked i))
    (hreleased : P (.released i)) : Leaves i P p.withLock := by
  refine ⟨hlocked, ?_⟩
  induction p with
  | done r => exact ⟨hreleased, trivial⟩
  | get k ih => exact fun s => ih s (hp s)
  | put s k ih => exact ih hp
  | note e k ih => exact ⟨hp.1, ih hp.2⟩
  | call q k ih => exact ⟨hp.1, fun r => ⟨(hp.2 r).1, ih r (hp.2 r).2⟩⟩
  | acquire k ih => exact ⟨hp.1, ih hp.2⟩
  | release k ih => exact ⟨hp.1, ih hp.2⟩

/-- More events may be let pass. -/
theorem mono {P' : Event τ ι ρ ω → Prop} {p : Co σ ι ρ ε ω α} (hp : Leaves i P p)
    (h : ∀ e, P e → P' e) : Leaves i P' p := by
  induction p with
  | done r => exact trivial
  | get k ih => exact fun s => ih s (hp s)
  | put s k ih => exact ih hp
  | note e k ih => exact ⟨h _ hp.1, ih hp.2⟩
  | call q k ih => exact ⟨h _ hp.1, fun r => ⟨h _ (hp.2 r).1, ih r (hp.2 r).2⟩⟩
  | acquire k ih => exact ⟨h _ hp.1, ih hp.2⟩
  | release k ih => exact ⟨h _ hp.1, ih hp.2⟩

/-- A run only adds events of the kind bounded. -/
theorem exec {p : Co σ ι ρ ε ω α} (hp : Leaves i P p) (E : Surroundings σ ρ) (n : Nat)
    (w : World τ σ ι ρ ω) :
    ∃ new, (p.exec E i n w).world.history = new ++ w.history ∧ ∀ e ∈ new, P e := by
  induction p generalizing n w with
  | done r => exact ⟨[], rfl, by simp⟩
  | get k ih => exact ih w.state (hp w.state) n w
  | put s k ih => exact ih hp n _
  | note e k ih =>
      rcases ih hp.2 n (w.log (.noted i e)) with ⟨new, hnew, hall⟩
      exact ⟨new ++ [.noted i e], by simpa [Co.exec] using hnew, by
        simpa [or_imp, forall_and] using ⟨hall, hp.1⟩⟩
  | call q k ih =>
      rcases ih (E.reply n) (hp.2 (E.reply n)).2 (n + 1)
        ⟨E.during n w.state, .got i q (E.reply n) :: .sent i q :: w.history⟩ with
        ⟨new, hnew, hall⟩
      exact ⟨new ++ [.got i q (E.reply n), .sent i q], by simpa [Co.exec] using hnew, by
        simpa [or_imp, forall_and] using ⟨hall, (hp.2 (E.reply n)).1, hp.1⟩⟩
  | acquire k ih =>
      rcases ih hp.2 n (w.log (.locked i)) with ⟨new, hnew, hall⟩
      exact ⟨new ++ [.locked i], by simpa [Co.exec] using hnew, by
        simpa [or_imp, forall_and] using ⟨hall, hp.1⟩⟩
  | release k ih =>
      rcases ih hp.2 n (w.log (.released i)) with ⟨new, hnew, hall⟩
      exact ⟨new ++ [.released i], by simpa [Co.exec] using hnew, by
        simpa [or_imp, forall_and] using ⟨hall, hp.1⟩⟩

/-- What a run sends from an empty history is of the kind bounded. -/
theorem sent {p : Co σ ι ρ ε ω α} (hp : Leaves i P p) {E : Surroundings σ ρ} {n : Nat} {s : σ}
    {q : ι} (hq : q ∈ (p.exec E i n ⟨s, []⟩).world.sends) : ∃ j, P (.sent j q) := by
  rcases World.mem_sends.mp hq with ⟨j, hj⟩
  rcases hp.exec E n ⟨s, []⟩ with ⟨new, hnew, hall⟩
  rw [hnew, List.append_nil] at hj
  exact ⟨j, hall _ hj⟩

/-- Every task leaves events. -/
theorem anything (p : Co σ ι ρ ε ω α) : Leaves i (fun _ => True) p := by
  induction p with
  | done r => exact trivial
  | get k ih => exact ih
  | put s k ih => exact ih
  | note e k ih => exact ⟨trivial, ih⟩
  | call q k ih => exact ⟨trivial, fun r => ⟨trivial, ih r⟩⟩
  | acquire k ih => exact ⟨trivial, ih⟩
  | release k ih => exact ⟨trivial, ih⟩

end Leaves

/-- A run only adds to the history. -/
theorem exec_history (p : Co σ ι ρ ε ω α) (E : Surroundings σ ρ) (i : τ) (n : Nat)
    (w : World τ σ ι ρ ω) : ∃ new, (p.exec E i n w).world.history = new ++ w.history := by
  rcases (Leaves.anything (i := i) p).exec E n w with ⟨new, hnew, -⟩
  exact ⟨new, hnew⟩

/-- What was in the history stays there. -/
theorem mem_exec_history {p : Co σ ι ρ ε ω α} {E : Surroundings σ ρ} {i : τ} {n : Nat}
    {w : World τ σ ι ρ ω} {e : Event τ ι ρ ω} (h : e ∈ w.history) :
    e ∈ (p.exec E i n w).world.history := by
  rcases exec_history p E i n w with ⟨new, hnew⟩
  rw [hnew]
  exact List.mem_append_right new h

/-- What the first part of a sequence left stays. -/
theorem mem_exec_bind {p : Co σ ι ρ ε ω α} {f : α → Co σ ι ρ ε ω β} {E : Surroundings σ ρ}
    {i : τ} {n : Nat} {w : World τ σ ι ρ ω} {e : Event τ ι ρ ω}
    (h : e ∈ (p.exec E i n w).world.history) :
    e ∈ ((p >>= f).exec E i n w).world.history := by
  rcases hrun : p.exec E i n w with ⟨r | a, n', w'⟩
  · rw [exec_bind_error hrun]
    rw [hrun] at h
    exact h
  · rw [exec_bind_ok hrun]
    rw [hrun] at h
    exact mem_exec_history h

/-- So does what a guarded task left. -/
theorem mem_exec_tryCatch {p : Co σ ι ρ ε ω α} {f : ε → Co σ ι ρ ε ω α} {E : Surroundings σ ρ}
    {i : τ} {n : Nat} {w : World τ σ ι ρ ω} {e : Event τ ι ρ ω}
    (h : e ∈ (p.exec E i n w).world.history) :
    e ∈ ((MonadExcept.tryCatch p f).exec E i n w).world.history := by
  rcases hrun : p.exec E i n w with ⟨r | a, n', w'⟩
  · rw [exec_tryCatch_error hrun]
    rw [hrun] at h
    exact mem_exec_history h
  · rw [exec_tryCatch_ok hrun]
    rw [hrun] at h
    exact h

/-- A run alone waits for each answer: what it has sent is what was answered. -/
theorem exec_sends_eq {p : Co σ ι ρ ε ω α} {E : Surroundings σ ρ} {i : τ} {n : Nat}
    {w : World τ σ ι ρ ω} (h : w.sends = w.answered.map Prod.fst) :
    (p.exec E i n w).world.sends = (p.exec E i n w).world.answered.map Prod.fst := by
  induction p generalizing n w with
  | done r => exact h
  | get k ih => exact ih w.state h
  | put s k ih => exact ih (w := { w with state := s }) h
  | note e k ih => exact ih (w := w.log (.noted i e)) h
  | call q k ih =>
      refine ih (E.reply n) ?_
      simp only [World.sends, World.answered] at h ⊢
      simp [h]
  | acquire k ih => exact ih (w := w.log (.locked i)) h
  | release k ih => exact ih (w := w.log (.released i)) h

/-- Of two events found in order in a history cut in two, the later one lies in
the newer part or the earlier one in the older. -/
theorem mem_of_pair_sublist {e e' : Event τ ι ρ ω} {newer older : List (Event τ ι ρ ω)}
    (h : [e, e'].Sublist (newer ++ older)) : e ∈ newer ∨ e' ∈ older := by
  rcases List.sublist_append_iff.mp h with ⟨l₁, l₂, hsplit, h₁, h₂⟩
  cases l₁ with
  | nil =>
      rw [List.nil_append] at hsplit
      subst hsplit
      exact .inr (h₂.subset (by simp))
  | cons a rest =>
      rw [List.cons_append, List.cons.injEq] at hsplit
      rcases hsplit with ⟨rfl, -⟩
      exact .inl (h₁.subset List.mem_cons_self)

/-! ## Exceptions -/

/-- Where its calls are answered as {lit}`G` says, the task ends in a value or in
an exception of {lit}`P`. -/
def Raises (G : ι → ρ → Prop) (P : ε → Prop) : Co σ ι ρ ε ω α → Prop
  | done (.ok _) => True
  | done (.error e) => P e
  | get k => ∀ s, (k s).Raises G P
  | put _ k => k.Raises G P
  | note _ k => k.Raises G P
  | call q k => ∀ r, G q r → (k r).Raises G P
  | acquire k => k.Raises G P
  | release k => k.Raises G P

namespace Raises

variable {G : ι → ρ → Prop} {P : ε → Prop}

/-- A value raises nothing. -/
theorem pure (a : α) : Raises G P (Pure.pure a : Co σ ι ρ ε ω α) :=
  trivial

/-- An exception raises itself. -/
theorem throw {e : ε} (h : P e) : Raises G P (MonadExcept.throw e : Co σ ι ρ ε ω α) :=
  h

/-- A result that is known beforehand raises what it holds. -/
theorem ofExcept {r : Except ε α} (h : ∀ e, r = .error e → P e) :
    Raises G P (Co.ofExcept r : Co σ ι ρ ε ω α) := by
  cases r with
  | ok a => exact trivial
  | error e => exact h e rfl

/-- Reading the state raises nothing. -/
theorem state : Raises G P (Co.state : Co σ ι ρ ε ω σ) :=
  fun _ => trivial

/-- An assignment raises nothing. -/
theorem modify (f : σ → σ) : Raises G P (Co.modify f : Co σ ι ρ ε ω Unit) :=
  fun _ => trivial

/-- A remark raises nothing. -/
theorem remark (e : ω) : Raises G P (Co.remark e : Co σ ι ρ ε ω Unit) :=
  trivial

/-- A sequence may use that its first part was answered as assumed. -/
theorem await_bind {G : ι → Except ε α → Prop} {q : ι} {f : α → Co σ ι (Except ε α) ε ω β}
    (herror : ∀ e, G q (.error e) → P e) (hf : ∀ a, G q (.ok a) → Raises G P (f a)) :
    Raises G P (Co.await q >>= f) := by
  intro r hr
  cases r with
  | ok a => exact hf a hr
  | error e => exact herror e hr

/-- A sequence raises what its parts raise. -/
theorem bind {p : Co σ ι ρ ε ω α} {f : α → Co σ ι ρ ε ω β} (hp : Raises G P p)
    (hf : ∀ a, Raises G P (f a)) : Raises G P (p >>= f) := by
  change Raises G P (p.bind f)
  induction p with
  | done r =>
      cases r with
      | ok a => exact hf a
      | error e => exact hp
  | get k ih => exact fun s => ih s (hp s)
  | put s k ih => exact ih hp
  | note e k ih => exact ih hp
  | call q k ih => exact fun r hr => ih r (hp r hr)
  | acquire k ih => exact ih hp
  | release k ih => exact ih hp

/-- What a guarded task ends in is what its handler ends in. -/
theorem tryCatch {P' : ε → Prop} {p : Co σ ι ρ ε ω α} {f : ε → Co σ ι ρ ε ω α}
    (hp : Raises G P' p) (hf : ∀ e, P' e → Raises G P (f e)) :
    Raises G P (MonadExcept.tryCatch p f) := by
  change Raises G P (p.handle f)
  induction p with
  | done r =>
      cases r with
      | ok a => exact trivial
      | error e => exact hf e hp
  | get k ih => exact fun s => ih s (hp s)
  | put s k ih => exact ih hp
  | note e k ih => exact ih hp
  | call q k ih => exact fun r hr => ih r (hp r hr)
  | acquire k ih => exact ih hp
  | release k ih => exact ih hp

/-- The lock raises nothing of its own. -/
theorem withLock {p : Co σ ι ρ ε ω α} (hp : Raises G P p) : Raises G P p.withLock := by
  change Raises G P p.thenRelease
  induction p with
  | done r => cases r <;> exact hp
  | get k ih => exact fun s => ih s (hp s)
  | put s k ih => exact ih hp
  | note e k ih => exact ih hp
  | call q k ih => exact fun r hr => ih r (hp r hr)
  | acquire k ih => exact ih hp
  | release k ih => exact ih hp

/-- Every task ends somehow. -/
theorem anything (p : Co σ ι ρ ε ω α) : Raises G (fun _ => True) p := by
  induction p with
  | done r => cases r <;> exact trivial
  | get k ih => exact ih
  | put s k ih => exact ih
  | note e k ih => exact ih
  | call q k ih => exact fun r _ => ih r
  | acquire k ih => exact ih
  | release k ih => exact ih

/-- A run answered as assumed ends as bounded. -/
theorem exec {p : Co σ ι ρ ε ω α} (hp : Raises G P p) {E : Surroundings σ ρ} {i : τ} {n : Nat}
    {w : World τ σ ι ρ ω}
    (hanswers : ∀ q r, .got i q r ∈ (p.exec E i n w).world.history → G q r) {e : ε}
    (he : (p.exec E i n w).result = .error e) : P e := by
  induction p generalizing n w with
  | done r =>
      simp only [Co.exec] at he
      subst he
      exact hp
  | get k ih => exact ih w.state (hp w.state) hanswers he
  | put s k ih => exact ih hp hanswers he
  | note e' k ih => exact ih hp hanswers he
  | call q k ih =>
      have hgot : Event.got i q (E.reply n) ∈ ((call q k).exec E i n w).world.history :=
        mem_exec_history (p := k (E.reply n)) List.mem_cons_self
      exact ih (E.reply n) (hp _ (hanswers q _ hgot)) hanswers he
  | acquire k ih => exact ih hp hanswers he
  | release k ih => exact ih hp hanswers he

end Raises

/-! ## What gets out -/

/-- The answers that task {lit}`i` has had are good. -/
def AllGot (i : τ) (good : ι → ρ → Prop) (history : List (Event τ ι ρ ω)) : Prop :=
  ∀ q r, .got i q r ∈ history → good q r

/-- What can only have good answers leaves them good. -/
theorem AllGot.of_leaves {E : Surroundings σ ρ} {i : τ} {good : ι → ρ → Prop} {n : Nat}
    {w : World τ σ ι ρ ω} {P : Event τ ι ρ ω → Prop} {p : Co σ ι ρ ε ω α}
    (hw : AllGot i good w.history) (hp : Leaves i P p)
    (hgood : ∀ q r, P (.got i q r) → good q r) :
    AllGot i good (p.exec E i n w).world.history := by
  intro q r hgot
  rcases hp.exec E n w with ⟨new, hnew, hall⟩
  rw [hnew] at hgot
  rcases List.mem_append.mp hgot with hgot | hgot
  · exact hgood q r (hall _ hgot)
  · exact hw q r hgot

/-- A task that has had an answer that is not good ends in an exception of {lit}`U`. -/
def LetsOut (E : Surroundings σ ρ) (i : τ) (good : ι → ρ → Prop) (U : ε → Prop)
    (p : Co σ ι ρ ε ω α) : Prop :=
  ∀ n w, AllGot i good w.history → AllGot i good (p.exec E i n w).world.history ∨
    ∃ e, (p.exec E i n w).result = .error e ∧ U e

namespace LetsOut

variable {E : Surroundings σ ρ} {i : τ} {good : ι → ρ → Prop} {U : ε → Prop}

/-- So does a task all of whose calls can only have good answers. -/
theorem of_leaves {P : Event τ ι ρ ω → Prop} {p : Co σ ι ρ ε ω α} (hp : Leaves i P p)
    (hgood : ∀ q r, P (.got i q r) → good q r) : LetsOut E i good U p :=
  fun _ _ hw => .inl (hw.of_leaves hp hgood)

/-- A sequence whose first part has let out an exception goes no further. -/
theorem bind {p : Co σ ι ρ ε ω α} {f : α → Co σ ι ρ ε ω β} (hp : LetsOut E i good U p)
    (hf : ∀ a, LetsOut E i good U (f a)) : LetsOut E i good U (p >>= f) := by
  intro n w hw
  have hfirst := hp n w hw
  rcases hrun : p.exec E i n w with ⟨e | a, n', w'⟩
  · rw [hrun] at hfirst
    rw [exec_bind_error hrun]
    rcases hfirst with hgood | ⟨e', he', hU⟩
    · exact .inl hgood
    · cases he'
      exact .inr ⟨e, rfl, hU⟩
  · rw [hrun] at hfirst
    rw [exec_bind_ok hrun]
    rcases hfirst with hgood | ⟨e', he', -⟩
    · exact hf a n' w' hgood
    · cases he'

/-- A handler that raises the exceptions of {lit}`U` again lets them out. -/
theorem tryCatch {p : Co σ ι ρ ε ω α} {f : ε → Co σ ι ρ ε ω α} (hp : LetsOut E i good U p)
    (hf : ∀ e, LetsOut E i good U (f e)) (hU : ∀ e, U e → f e = MonadExcept.throw e) :
    LetsOut E i good U (MonadExcept.tryCatch p f) := by
  intro n w hw
  have hfirst := hp n w hw
  rcases hrun : p.exec E i n w with ⟨e | a, n', w'⟩
  · rw [hrun] at hfirst
    rw [exec_tryCatch_error hrun]
    rcases hfirst with hgood | ⟨e', he', hUe⟩
    · exact hf e n' w' hgood
    · cases he'
      rw [hU e hUe]
      exact .inr ⟨e, rfl, hUe⟩
  · rw [hrun] at hfirst
    rw [exec_tryCatch_ok hrun]
    exact hfirst

/-- The lock is no answer. -/
theorem withLock {p : Co σ ι ρ ε ω α} (hp : LetsOut E i good U p) :
    LetsOut E i good U p.withLock := by
  intro n w hw
  have hlocked : AllGot i good (w.log (.locked i)).history := by
    intro q r hgot
    exact hw q r (by simpa using hgot)
  rw [exec_withLock]
  rcases hp n (w.log (.locked i)) hlocked with hgood | hU
  · left
    intro q r hgot
    exact hgood q r (by simpa using hgot)
  · exact .inr hU

/-- Where nothing has got out, the answers were good. -/
theorem allGot {p : Co σ ι ρ ε ω α} (hp : LetsOut E i good U p) {n : Nat} {w : World τ σ ι ρ ω}
    (hw : AllGot i good w.history) {r : Except ε α} {n' : Nat} {w' : World τ σ ι ρ ω}
    (hrun : p.exec E i n w = ⟨r, n', w'⟩) (hr : ∀ e, r = .error e → ¬ U e) :
    AllGot i good w'.history := by
  have hends := hp n w hw
  rw [hrun] at hends
  rcases hends with hgood | ⟨e, he, hU⟩
  · exact hgood
  · exact absurd hU (hr e he)

end LetsOut

/-- Every answer in the history of a run is one the surroundings gave. -/
theorem exec_got {p : Co σ ι ρ ε ω α} {E : Surroundings σ ρ} {i : τ} {n : Nat}
    {w : World τ σ ι ρ ω} {q : ι} {r : ρ}
    (h : .got i q r ∈ (p.exec E i n w).world.history) :
    .got i q r ∈ w.history ∨ ∃ k, r = E.reply k := by
  induction p generalizing n w with
  | done r' => exact .inl h
  | get k ih => exact ih w.state h
  | put s k ih => exact ih (w := { w with state := s }) h
  | note e k ih => simpa using ih h
  | call q' k ih =>
      rcases ih (E.reply n) h with hold | hnew
      · simp only [List.mem_cons, Event.got.injEq, reduceCtorEq, false_or] at hold
        rcases hold with ⟨-, -, rfl⟩ | hold
        · exact .inr ⟨n, rfl⟩
        · exact .inl hold
      · exact .inr hnew
  | acquire k ih => simpa using ih h
  | release k ih => simpa using ih h

end Co

end Coroutine
