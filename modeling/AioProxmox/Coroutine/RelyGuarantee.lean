import AioProxmox.Coroutine.Tasks
import Mathlib.Tactic.Tauto

/-!
# Coroutines - rely and guarantee with one lock

A discipline says what tasks that share a state may rely on while they are
suspended: a task holding the lock relies on more than one that does not.  Every
atomic action has to respect what each other task relies on and, where the task
does not hold the lock, the lock's invariant; the lock is given back only where
that invariant holds, and a task is suspended only where the common invariant
does.  The verification condition of a task is computed from its syntax, so a
proof follows the program text.

A discipline may also restrict the histories considered.  A task can use the
restriction at each event it leaves, and the conclusion then speaks of the runs
whose history satisfies it.

Main results:

- Definition {lit}`Co.wp`: the verification condition of one task.
- Theorems {lit}`Co.wp_bind`, {lit}`Co.wp_tryCatch` and {lit}`Co.wp_withLock`:
  the condition of a composite task from those of its parts.
- Theorem {lit}`Config.Respects.reaches`: where every task meets its condition,
  every run keeps to the discipline, and every task that has ended satisfies its
  postcondition.
-/

namespace Coroutine

variable {τ σ ι ρ ε ω α β : Type}

/-- What tasks rely on.  The flag of {lit}`rely` tells whether the task that
relies holds the lock, that of {lit}`environment` whether anybody does. -/
structure Discipline (τ σ ι ρ ω : Type) where
  /-- The histories considered. -/
  assume : List (Event τ ι ρ ω) → Prop
  /-- What the environment may do to the state. -/
  environment : Bool → σ → σ → Prop
  /-- What holds whenever every task is suspended. -/
  suspended : World τ σ ι ρ ω → Prop
  /-- What holds besides while nobody holds the lock. -/
  free : World τ σ ι ρ ω → Prop
  /-- What others may do to the world while a task is suspended. -/
  rely : τ → Bool → World τ σ ι ρ ω → World τ σ ι ρ ω → Prop
  assume_tail : ∀ e hist, assume (e :: hist) → assume hist
  rely_refl : ∀ j h w, rely j h w w
  rely_trans : ∀ j h w₁ w₂ w₃, rely j h w₁ w₂ → rely j h w₂ w₃ → rely j h w₁ w₃
  rely_weaken : ∀ j w₁ w₂, rely j true w₁ w₂ → rely j false w₁ w₂
  environment_suspended : ∀ h w s, environment h w.state s → suspended w →
    suspended { w with state := s }
  environment_rely : ∀ j h w s, environment h w.state s → suspended w →
    rely j h w { w with state := s }
  environment_free : ∀ w s, environment false w.state s → suspended w → free w →
    free { w with state := s }

/-- What a task must end in; the flag tells whether it holds the lock. -/
abbrev Post (τ σ ι ρ ε ω α : Type) :=
  Bool → Except ε α → World τ σ ι ρ ω → Prop

namespace Discipline

variable (D : Discipline τ σ ι ρ ω)

/-- What is relied on with the lock or without it is relied on without. -/
theorem rely_false_of {j : τ} {h : Bool} {w₁ w₂ : World τ σ ι ρ ω}
    (hr : D.rely j h w₁ w₂) : D.rely j false w₁ w₂ := by
  cases h with
  | false => exact hr
  | true => exact D.rely_weaken _ _ _ hr

/-- What a task may do: all the others rely on it, and without the lock it leaves
the invariant of the lock alone. -/
structure Allows (i : τ) (h : Bool) (w w' : World τ σ ι ρ ω) : Prop where
  others : ∀ j, j ≠ i → D.rely j (!h) w w'
  free : h = false → D.free w → D.free w'

/-- Leaving an event: it may be assumed to keep the history among those
considered, and must be allowed. -/
def Logs (i : τ) (h : Bool) (w : World τ σ ι ρ ω) (e : Event τ ι ρ ω)
    (K : World τ σ ι ρ ω → Prop) : Prop :=
  D.assume (e :: w.history) → D.Allows i h w (w.log e) ∧ K (w.log e)

variable {D}

/-- Nothing done is allowed. -/
theorem Allows.refl (i : τ) (h : Bool) (w : World τ σ ι ρ ω) : D.Allows i h w w where
  others j _ := D.rely_refl j (!h) w
  free _ hfree := hfree

/-- What is allowed may be done in turn. -/
theorem Allows.trans {i : τ} {h : Bool} {w₁ w₂ w₃ : World τ σ ι ρ ω}
    (h₁ : D.Allows i h w₁ w₂) (h₂ : D.Allows i h w₂ w₃) : D.Allows i h w₁ w₃ where
  others j hj := D.rely_trans _ _ _ _ _ (h₁.others j hj) (h₂.others j hj)
  free hh hfree := h₂.free hh (h₁.free hh hfree)

/-- What a task is allowed to do the others rely on. -/
theorem Allows.rely_false {i : τ} {h : Bool} {w w' : World τ σ ι ρ ω}
    (ha : D.Allows i h w w') (j : τ) (hj : j ≠ i) : D.rely j false w w' :=
  D.rely_false_of (ha.others j hj)

/-- Less may be known after an event. -/
theorem Logs.mono {i : τ} {h : Bool} {w : World τ σ ι ρ ω} {e : Event τ ι ρ ω}
    {K K' : World τ σ ι ρ ω → Prop} (hlogs : D.Logs i h w e K)
    (hK : ∀ w', K w' → K' w') : D.Logs i h w e K' := by
  intro hassume
  obtain ⟨hallowed, hk⟩ := hlogs hassume
  exact ⟨hallowed, hK _ hk⟩

end Discipline

namespace Co

variable (D : Discipline τ σ ι ρ ω) (i : τ)

/-- The verification condition of task {lit}`i` in a world. -/
def wp : Co σ ι ρ ε ω α → Bool → Post τ σ ι ρ ε ω α → World τ σ ι ρ ω → Prop
  | done r, h, Q, w => Q h r w
  | get k, h, Q, w => (k w.state).wp h Q w
  | put s k, h, Q, w =>
      D.Allows i h w { w with state := s } ∧ k.wp h Q { w with state := s }
  | note e k, h, Q, w => D.Logs i h w (.noted i e) (k.wp h Q)
  | call q k, h, Q, w =>
      D.Logs i h w (.sent i q) fun w₁ => D.suspended w₁ ∧
        ∀ w₂ r, D.rely i h w₁ w₂ → D.suspended w₂ →
          D.Logs i h w₂ (.got i q r) ((k r).wp h Q)
  | acquire k, h, Q, w =>
      h = false ∧ D.suspended w ∧
        ∀ w₁, D.rely i false w w₁ → D.suspended w₁ → D.free w₁ →
          D.Logs i true w₁ (.locked i) (k.wp true Q)
  | release k, h, Q, w =>
      h = true ∧
        D.Logs i true w (.released i) fun w₁ => D.free w₁ ∧ k.wp false Q w₁

/-- The condition of a task already stopped at its first suspension point: it
holds again after whatever the others do meanwhile. -/
def Waits (p : Co σ ι ρ ε ω α) (h : Bool) (Q : Post τ σ ι ρ ε ω α)
    (w : World τ σ ι ρ ω) : Prop :=
  match p with
  | call q k =>
      ∀ w₂ r, D.rely i h w w₂ → D.suspended w₂ →
        D.Logs i h w₂ (.got i q r) ((k r).wp D i h Q)
  | p => ∀ w₂, D.rely i h w w₂ → D.suspended w₂ → p.wp D i h Q w₂

variable {D i}

/-! ## Rules for the parts of a task -/

/-- A weaker postcondition is met as well. -/
theorem wp_mono {p : Co σ ι ρ ε ω α} {h : Bool} {Q Q' : Post τ σ ι ρ ε ω α}
    {w : World τ σ ι ρ ω} (hp : p.wp D i h Q w)
    (hQ : ∀ h r w, Q h r w → Q' h r w) : p.wp D i h Q' w := by
  induction p generalizing h w with
  | done r => exact hQ h r w hp
  | get k ih => exact ih _ hp
  | put s k ih => exact ⟨hp.1, ih hp.2⟩
  | note e k ih => exact hp.mono fun w' hk => ih hk
  | call q k ih =>
      refine hp.mono fun w₁ hk => ⟨hk.1, fun w₂ r hr hs => ?_⟩
      exact (hk.2 w₂ r hr hs).mono fun w' hk' => ih r hk'
  | acquire k ih =>
      refine ⟨hp.1, hp.2.1, fun w₁ hr hs hfree => ?_⟩
      exact (hp.2.2 w₁ hr hs hfree).mono fun w' hk => ih hk
  | release k ih =>
      refine ⟨hp.1, hp.2.mono fun w' hk => ?_⟩
      exact ⟨hk.1, ih hk.2⟩

@[simp]
theorem wp_pure (a : α) (h : Bool) (Q : Post τ σ ι ρ ε ω α) (w : World τ σ ι ρ ω) :
    (pure a : Co σ ι ρ ε ω α).wp D i h Q w ↔ Q h (.ok a) w :=
  Iff.rfl

@[simp]
theorem wp_throw (e : ε) (h : Bool) (Q : Post τ σ ι ρ ε ω α) (w : World τ σ ι ρ ω) :
    (throw e : Co σ ι ρ ε ω α).wp D i h Q w ↔ Q h (.error e) w :=
  Iff.rfl

@[simp]
theorem wp_ofExcept (r : Except ε α) (h : Bool) (Q : Post τ σ ι ρ ε ω α)
    (w : World τ σ ι ρ ω) :
    (ofExcept r : Co σ ι ρ ε ω α).wp D i h Q w ↔ Q h r w :=
  Iff.rfl

@[simp]
theorem wp_state (h : Bool) (Q : Post τ σ ι ρ ε ω σ) (w : World τ σ ι ρ ω) :
    (state : Co σ ι ρ ε ω σ).wp D i h Q w ↔ Q h (.ok w.state) w :=
  Iff.rfl

/-- An assignment has to be allowed. -/
@[simp]
theorem wp_modify (f : σ → σ) (h : Bool) (Q : Post τ σ ι ρ ε ω Unit)
    (w : World τ σ ι ρ ω) :
    (modify f : Co σ ι ρ ε ω Unit).wp D i h Q w ↔
      D.Allows i h w { w with state := f w.state } ∧
        Q h (.ok ()) { w with state := f w.state } :=
  Iff.rfl

/-- A remark has to be allowed. -/
@[simp]
theorem wp_remark (e : ω) (h : Bool) (Q : Post τ σ ι ρ ε ω Unit) (w : World τ σ ι ρ ω) :
    (remark e : Co σ ι ρ ε ω Unit).wp D i h Q w ↔
      D.Logs i h w (.noted i e) (Q h (.ok ())) :=
  Iff.rfl

/-- A call is made with the invariant in place, and goes on from whatever the others leave. -/
@[simp]
theorem wp_await {D : Discipline τ σ ι (Except ε α) ω} (q : ι) (h : Bool)
    (Q : Post τ σ ι (Except ε α) ε ω α) (w : World τ σ ι (Except ε α) ω) :
    (await q : Co σ ι (Except ε α) ε ω α).wp D i h Q w ↔
      D.Logs i h w (.sent i q) fun w₁ => D.suspended w₁ ∧
        ∀ w₂ r, D.rely i h w₁ w₂ → D.suspended w₂ → D.Logs i h w₂ (.got i q r) (Q h r) :=
  Iff.rfl

/-- A sequence meets its condition when its first part does, and the part its
value selects meets the rest. -/
theorem wp_bind (p : Co σ ι ρ ε ω α) (f : α → Co σ ι ρ ε ω β) (h : Bool)
    (Q : Post τ σ ι ρ ε ω β) :
    (p >>= f).wp D i h Q =
      p.wp D i h fun h r w =>
        match r with
        | .ok a => (f a).wp D i h Q w
        | .error e => Q h (.error e) w := by
  change (p.bind f).wp D i h Q = _
  induction p generalizing h with
  | done r => cases r <;> rfl
  | get k ih => funext w; simp only [bind, wp, ih]
  | put s k ih => funext w; simp only [bind, wp, ih]
  | note e k ih => funext w; simp only [bind, wp, ih]
  | call q k ih => funext w; simp only [bind, wp, ih]
  | acquire k ih => funext w; simp only [bind, wp, ih]
  | release k ih => funext w; simp only [bind, wp, ih]

/-- A guarded task meets its condition when the task does, its handler taking
over where it raised. -/
theorem wp_tryCatch (p : Co σ ι ρ ε ω α) (f : ε → Co σ ι ρ ε ω α) (h : Bool)
    (Q : Post τ σ ι ρ ε ω α) :
    (tryCatch p f).wp D i h Q =
      p.wp D i h fun h r w =>
        match r with
        | .ok a => Q h (.ok a) w
        | .error e => (f e).wp D i h Q w := by
  change (p.handle f).wp D i h Q = _
  induction p generalizing h with
  | done r => cases r <;> rfl
  | get k ih => funext w; simp only [handle, wp, ih]
  | put s k ih => funext w; simp only [handle, wp, ih]
  | note e k ih => funext w; simp only [handle, wp, ih]
  | call q k ih => funext w; simp only [handle, wp, ih]
  | acquire k ih => funext w; simp only [handle, wp, ih]
  | release k ih => funext w; simp only [handle, wp, ih]

/-- A task under the lock starts where the lock's invariant holds and has to
restore it, however it ends. -/
theorem wp_withLock (p : Co σ ι ρ ε ω α) (Q : Post τ σ ι ρ ε ω α)
    (w : World τ σ ι ρ ω) :
    p.withLock.wp D i false Q w ↔
      D.suspended w ∧ ∀ w₁, D.rely i false w w₁ → D.suspended w₁ → D.free w₁ →
        D.Logs i true w₁ (.locked i)
          (p.wp D i true fun h r w =>
            h = true ∧
              D.Logs i true w (.released i) fun w₂ => D.free w₂ ∧ Q false r w₂) := by
  have hrelease : ∀ (p : Co σ ι ρ ε ω α) h,
      p.thenRelease.wp D i h Q =
        p.wp D i h fun h r w =>
          h = true ∧
            D.Logs i true w (.released i) fun w₂ => D.free w₂ ∧ Q false r w₂ := by
    intro p
    induction p with
    | done r => intro h; rfl
    | get k ih => intro h; funext w; simp only [thenRelease, wp, ih]
    | put s k ih => intro h; funext w; simp only [thenRelease, wp, ih]
    | note e k ih => intro h; funext w; simp only [thenRelease, wp, ih]
    | call q k ih => intro h; funext w; simp only [thenRelease, wp, ih]
    | acquire k ih => intro h; funext w; simp only [thenRelease, wp, ih]
    | release k ih => intro h; funext w; simp only [thenRelease, wp, ih]
  simp only [withLock, wp, hrelease, true_and]

/-! ## One segment of a task -/

/-- A postcondition with which a task may end: the common invariant holds, and
the others cannot invalidate it. -/
structure Lasting (D : Discipline τ σ ι ρ ω) (i : τ) (Q : Post τ σ ι ρ ε ω α) : Prop where
  suspended : ∀ h r w, Q h r w → D.suspended w
  stable : ∀ h r w₁ w₂, Q h r w₁ → D.rely i h w₁ w₂ → D.suspended w₂ → Q h r w₂

/-- A waiting task still waits after what the others do. -/
theorem Waits.stable {p : Co σ ι ρ ε ω α} {h : Bool} {Q : Post τ σ ι ρ ε ω α}
    {w₁ w₂ : World τ σ ι ρ ω} (hp : Waits D i p h Q w₁) (hr : D.rely i h w₁ w₂) :
    Waits D i p h Q w₂ := by
  cases p with
  | call q k => exact fun w₃ r hr' => hp w₃ r (D.rely_trans _ _ _ _ _ hr hr')
  | done r => exact fun w₃ hr' => hp w₃ (D.rely_trans _ _ _ _ _ hr hr')
  | get k => exact fun w₃ hr' => hp w₃ (D.rely_trans _ _ _ _ _ hr hr')
  | put s k => exact fun w₃ hr' => hp w₃ (D.rely_trans _ _ _ _ _ hr hr')
  | note e k => exact fun w₃ hr' => hp w₃ (D.rely_trans _ _ _ _ _ hr hr')
  | acquire k => exact fun w₃ hr' => hp w₃ (D.rely_trans _ _ _ _ _ hr hr')
  | release k => exact fun w₃ hr' => hp w₃ (D.rely_trans _ _ _ _ _ hr hr')

/-- Running on to the next suspension point only adds to the history. -/
theorem advance_history (p : Co σ ι ρ ε ω α) (h : Bool) (w : World τ σ ι ρ ω) :
    ∃ new, (p.advance i h w).2.2.history = new ++ w.history := by
  induction p generalizing h w with
  | done r => exact ⟨[], rfl⟩
  | get k ih => exact ih _ h w
  | put s k ih => exact ih h { w with state := s }
  | note e k ih =>
      obtain ⟨new, hnew⟩ := ih h (w.log (.noted i e))
      exact ⟨new ++ [.noted i e], by simpa [advance] using hnew⟩
  | call q k ih => exact ⟨[.sent i q], rfl⟩
  | acquire k ih => exact ⟨[], rfl⟩
  | release k ih =>
      obtain ⟨new, hnew⟩ := ih false (w.log (.released i))
      exact ⟨new ++ [.released i], by simpa [advance] using hnew⟩

end Co

/-- A history considered has only considered histories behind it. -/
theorem Discipline.assume_append (D : Discipline τ σ ι ρ ω)
    (new hist : List (Event τ ι ρ ω)) (hassume : D.assume (new ++ hist)) :
    D.assume hist := by
  induction new with
  | nil => exact hassume
  | cons e new ih => exact ih (D.assume_tail e _ hassume)

namespace Co

variable {D : Discipline τ σ ι ρ ω} {i : τ}

/-- What the segment of a task that meets its condition does: it waits again,
and what it did was allowed. -/
structure Segment (D : Discipline τ σ ι ρ ω) (i : τ) (Q : Post τ σ ι ρ ε ω α) (h : Bool)
    (w : World τ σ ι ρ ω) (next : Co σ ι ρ ε ω α × Bool × World τ σ ι ρ ω) : Prop where
  waits : Waits D i next.1 next.2.1 Q next.2.2
  suspended : D.suspended next.2.2
  others : ∀ j, j ≠ i → D.rely j false w next.2.2
  holder : h = false → next.2.1 = false ∧ D.Allows i false w next.2.2
  freed : h = true → next.2.1 = false → D.free next.2.2

/-- What was allowed before a segment is part of it. -/
theorem Segment.prepend {Q : Post τ σ ι ρ ε ω α} {h : Bool} {w w' : World τ σ ι ρ ω}
    {next : Co σ ι ρ ε ω α × Bool × World τ σ ι ρ ω} (ha : D.Allows i h w w')
    (hs : Segment D i Q h w' next) : Segment D i Q h w next where
  waits := hs.waits
  suspended := hs.suspended
  others j hj := D.rely_trans _ _ _ _ _ (ha.rely_false j hj) (hs.others j hj)
  holder hh := by
    subst hh
    exact ⟨(hs.holder rfl).1, ha.trans (hs.holder rfl).2⟩
  freed := hs.freed

/-- One segment of a task keeps to the discipline. -/
theorem advance_segment {Q : Post τ σ ι ρ ε ω α} (hQ : Lasting D i Q)
    (p : Co σ ι ρ ε ω α) (h : Bool) (w : World τ σ ι ρ ω) (hp : p.wp D i h Q w)
    (hassume : D.assume (p.advance i h w).2.2.history) :
    Segment D i Q h w (p.advance i h w) := by
  induction p generalizing h w with
  | done r =>
      constructor
      · exact fun w₂ hr hs => hQ.stable h r w w₂ hp hr hs
      · exact hQ.suspended h r w hp
      · exact fun j _ => D.rely_refl j false w
      · exact fun hh => ⟨hh, .refl i false w⟩
      · exact fun ht hf => absurd (ht.symm.trans hf) (by decide)
  | get k ih => exact ih _ h w hp hassume
  | put s k ih => exact (ih h _ hp.2 hassume).prepend hp.1
  | note e k ih =>
      have hhere : D.assume (.noted i e :: w.history) := by
        obtain ⟨new, hnew⟩ := advance_history (i := i) k h (w.log (.noted i e))
        refine D.assume_append new _ ?_
        have : D.assume (k.advance i h (w.log (.noted i e))).2.2.history := hassume
        rwa [hnew] at this
      obtain ⟨ha, hk⟩ := hp hhere
      exact (ih h _ hk hassume).prepend ha
  | call q k ih =>
      obtain ⟨ha, hs, hk⟩ := hp hassume
      constructor
      · exact hk
      · exact hs
      · exact ha.rely_false
      · rintro rfl
        exact ⟨rfl, ha⟩
      · exact fun ht hf => absurd (ht.symm.trans hf) (by decide)
  | acquire k ih =>
      obtain ⟨rfl, hs, hk⟩ := hp
      constructor
      · intro w₂ hr hs₂
        exact ⟨rfl, hs₂, fun w₃ hr' => hk w₃ (D.rely_trans _ _ _ _ _ hr hr')⟩
      · exact hs
      · exact fun j _ => D.rely_refl j false w
      · exact fun _ => ⟨rfl, .refl i false w⟩
      · exact fun ht => absurd ht (by decide)
  | release k ih =>
      obtain ⟨rfl, hk⟩ := hp
      have hhere : D.assume (.released i :: w.history) := by
        obtain ⟨new, hnew⟩ := advance_history (i := i) k false (w.log (.released i))
        refine D.assume_append new _ ?_
        have : D.assume (k.advance i false (w.log (.released i))).2.2.history := hassume
        rwa [hnew] at this
      obtain ⟨ha, hfree, hk⟩ := hk hhere
      have hs := ih false _ hk hassume
      constructor
      · exact hs.waits
      · exact hs.suspended
      · exact fun j hj => D.rely_trans _ _ _ _ _ (ha.rely_false j hj) (hs.others j hj)
      · exact fun hh => absurd hh (by decide)
      · exact fun _ _ => (hs.holder rfl).2.free rfl hfree

end Co

/-! ## Whole pools -/

namespace Config

/-- The condition of a thread of the pool. -/
def ThreadOk (D : Discipline τ σ ι ρ ω) (i : τ) (Q : Post τ σ ι ρ ε ω α) (h : Bool)
    (w : World τ σ ι ρ ω) : Thread σ ι ρ ε ω α → Prop
  | .fresh p =>
      h = false ∧ ∀ w₂, D.rely i false w w₂ → D.suspended w₂ → p.wp D i false Q w₂
  | .parked p => Co.Waits D i p h Q w

/-- A thread that waits goes on as planned after what it relies on. -/
theorem ThreadOk.stable {D : Discipline τ σ ι ρ ω} {i : τ} {Q : Post τ σ ι ρ ε ω α}
    {h : Bool} {w₁ w₂ : World τ σ ι ρ ω} {t : Thread σ ι ρ ε ω α}
    (ht : ThreadOk D i Q h w₁ t) (hr : D.rely i h w₁ w₂) : ThreadOk D i Q h w₂ t := by
  cases t with
  | fresh p =>
      refine ⟨ht.1, fun w₃ hr' => ht.2 w₃ ?_⟩
      exact D.rely_trans _ _ _ _ _ (D.rely_false_of hr) hr'
  | parked p => exact Co.Waits.stable ht hr

variable [DecidableEq τ]

/-- Every thread meets its condition, and the free lock its invariant. -/
structure Respects (D : Discipline τ σ ι ρ ω) (Q : τ → Post τ σ ι ρ ε ω α)
    (c : Config τ σ ι ρ ε ω α) : Prop where
  threads : ∀ i, ThreadOk D i (Q i) (decide (c.holder = some i)) c.world (c.pool i)
  suspended : D.suspended c.world
  free : c.holder = none → D.free c.world

variable {D : Discipline τ σ ι ρ ω} {Q : τ → Post τ σ ι ρ ε ω α}

/-- A pool of tasks that meet their conditions keeps to the discipline at first. -/
theorem initial_respects {s : σ} {tasks : τ → Co σ ι ρ ε ω α}
    (hsuspended : D.suspended ⟨s, []⟩) (hfree : D.free ⟨s, []⟩)
    (htasks : ∀ i w, D.rely i false ⟨s, []⟩ w → D.suspended w →
      (tasks i).wp D i false (Q i) w) :
    Respects D Q (initial s tasks) where
  threads i := ⟨rfl, htasks i⟩
  suspended := hsuspended
  free _ := hfree

/-- A task that has ended satisfies its postcondition. -/
theorem Respects.result {c : Config τ σ ι ρ ε ω α} (hc : Respects D Q c) {i : τ}
    {r : Except ε α} (hr : c.result i = some r) :
    Q i (decide (c.holder = some i)) r c.world := by
  have hi := hc.threads i
  unfold Config.result at hr
  split at hr
  · rename_i r' hpool
    cases hr
    rw [hpool] at hi
    exact hi c.world (D.rely_refl _ _ _) hc.suspended
  · contradiction

/-- Letting a task run one segment keeps the whole pool to the discipline. -/
theorem Respects.advanceTask (hQ : ∀ i, Co.Lasting D i (Q i)) {c : Config τ σ ι ρ ε ω α}
    (hc : Respects D Q c) {i : τ} {p : Co σ ι ρ ε ω α} {h : Bool} {w : World τ σ ι ρ ω}
    (hholder : h = true → c.holder = none ∨ c.holder = some i)
    (hother : h = false → c.holder ≠ some i)
    (hw : D.Allows i h c.world w) (hp : p.wp D i h (Q i) w)
    (hassume : D.assume (p.advance i h w).2.2.history) :
    Respects D Q (c.advanceTask i p h w) := by
  have hseg := (Co.advance_segment (hQ i) p h w hp hassume).prepend hw
  constructor
  · intro j
    by_cases hij : j = i
    · subst j
      have hflag : decide ((c.advanceTask i p h w).holder = some i)
          = (p.advance i h w).2.1 := by
        cases h with
        | true => cases hh : (p.advance i true w).2.1 <;> simp [Config.advanceTask, hh]
        | false => simp [Config.advanceTask, hother rfl, (hseg.holder rfl).1]
      rw [hflag, advanceTask_pool_self]
      exact hseg.waits
    · rw [advanceTask_pool_of_ne c hij]
      have hj := hc.threads j
      cases h with
      | true =>
          have hflag : decide ((c.advanceTask i p true w).holder = some j) = false := by
            cases hh : (p.advance i true w).2.1 <;>
              simp [Config.advanceTask, hh, Ne.symm hij]
          have hold : decide (c.holder = some j) = false := by
            rcases hholder rfl with hnone | hsome <;> simp [*, Ne.symm hij]
          rw [hold] at hj
          rw [hflag]
          exact hj.stable (hseg.others j hij)
      | false =>
          have hsame : (c.advanceTask i p false w).holder = c.holder := by
            simp [Config.advanceTask]
          rw [hsame]
          cases hdec : decide (c.holder = some j) with
          | true => rw [hdec] at hj; exact hj.stable ((hseg.holder rfl).2.others j hij)
          | false => rw [hdec] at hj; exact hj.stable (hseg.others j hij)
  · exact hseg.suspended
  · intro hnone
    simp only [Config.advanceTask] at hnone ⊢
    cases h with
    | true =>
        refine hseg.freed rfl ?_
        cases hflag : (p.advance i true w).2.1 with
        | true => simp [hflag] at hnone
        | false => rfl
    | false =>
        simp only [Bool.false_eq_true, if_false] at hnone
        exact (hseg.holder rfl).2.free rfl (hc.free hnone)

/-- The history after a step extends the one before. -/
theorem step_history {c c' : Config τ σ ι ρ ε ω α} {a : Action τ σ ρ}
    (hstep : c.step a = some c') :
    ∃ new, c'.world.history = new ++ c.world.history := by
  rcases step_cases hstep with ⟨i, p, -, -, rfl⟩ | ⟨i, r, q, k, -, -, rfl⟩ |
    ⟨i, k, -, -, -, rfl⟩ | ⟨f, -, rfl⟩
  · exact Co.advance_history p false c.world
  · obtain ⟨new, hnew⟩ := Co.advance_history (i := i) (k r) (decide (c.holder = some i))
      (c.world.log (.got i q r))
    exact ⟨new ++ [.got i q r], by simpa [Config.advanceTask] using hnew⟩
  · obtain ⟨new, hnew⟩ := Co.advance_history (i := i) k true (c.world.log (.locked i))
    exact ⟨new ++ [.locked i], by simpa [Config.advanceTask] using hnew⟩
  · exact ⟨[], rfl⟩

/-- So does the history after a run. -/
theorem reaches_grows {permit : Config τ σ ι ρ ε ω α → Action τ σ ρ → Prop}
    {c c' : Config τ σ ι ρ ε ω α} (hrun : Reaches permit c c') :
    c.world.Grows c'.world := by
  induction hrun with
  | refl => exact World.Grows.refl _
  | tail _ _ hstep ih => exact ih.trans (step_history hstep)

/-- A step keeps the pool to the discipline. -/
theorem Respects.step (hQ : ∀ i, Co.Lasting D i (Q i)) {c c' : Config τ σ ι ρ ε ω α}
    {a : Action τ σ ρ} (hc : Respects D Q c) (hstep : c.step a = some c')
    (henv : ∀ f, a = .environment f →
      D.environment c.holder.isSome c.world.state (f c.world.state))
    (hassume : D.assume c'.world.history) : Respects D Q c' := by
  rcases step_cases hstep with ⟨i, p, rfl, hpool, rfl⟩ | ⟨i, r, q, k, rfl, hpool, rfl⟩ |
    ⟨i, k, rfl, hpool, hnone, rfl⟩ | ⟨f, rfl, rfl⟩
  · have hi := hc.threads i
    rw [hpool] at hi
    refine hc.advanceTask hQ (by simp) (fun _ => by simpa using hi.1) (.refl i _ _) ?_ hassume
    exact hi.2 c.world (D.rely_refl _ _ _) hc.suspended
  · have hi := hc.threads i
    rw [hpool] at hi
    have hhere : D.assume (.got i q r :: c.world.history) := by
      obtain ⟨new, hnew⟩ := Co.advance_history (i := i) (k r) (decide (c.holder = some i))
        (c.world.log (.got i q r))
      refine D.assume_append new _ ?_
      simp only [Config.advanceTask] at hassume
      rwa [hnew] at hassume
    obtain ⟨hr, hk⟩ := hi c.world r (D.rely_refl _ _ _) hc.suspended hhere
    exact hc.advanceTask hQ (fun h => .inr (by simpa using h)) (by simp) hr hk hassume
  · have hi := hc.threads i
    rw [hpool, hnone] at hi
    have hhere : D.assume (.locked i :: c.world.history) := by
      obtain ⟨new, hnew⟩ := Co.advance_history (i := i) k true (c.world.log (.locked i))
      refine D.assume_append new _ ?_
      simp only [Config.advanceTask] at hassume
      rwa [hnew] at hassume
    obtain ⟨-, -, hk⟩ := hi c.world (D.rely_refl _ _ _) hc.suspended
    obtain ⟨hr, hk⟩ := hk c.world (D.rely_refl _ _ _) hc.suspended (hc.free hnone) hhere
    exact hc.advanceTask hQ (fun _ => .inl hnone) (by simp) hr hk hassume
  · have hr := fun j => D.environment_rely j _ _ _ (henv f rfl) hc.suspended
    refine ⟨fun i => ?_, D.environment_suspended _ _ _ (henv f rfl) hc.suspended,
      fun hnone => ?_⟩
    · apply (hc.threads i).stable
      by_cases hi : c.holder = some i
      · rw [hi] at hr ⊢
        simpa using hr i
      · rw [decide_eq_false hi]
        exact D.rely_false_of (hr i)
    · have hnone : c.holder = none := hnone
      have hchange := henv f rfl
      rw [hnone] at hchange
      exact D.environment_free _ _ hchange hc.suspended (hc.free hnone)

/-- Whatever is reached under the discipline keeps to it. -/
theorem Respects.reaches (hQ : ∀ i, Co.Lasting D i (Q i))
    {permit : Config τ σ ι ρ ε ω α → Action τ σ ρ → Prop}
    (hpermit : ∀ c f, permit c (.environment f) →
      D.environment c.holder.isSome c.world.state (f c.world.state))
    {c c' : Config τ σ ι ρ ε ω α} (hc : Respects D Q c) (hrun : Reaches permit c c')
    (hassume : D.assume c'.world.history) : Respects D Q c' := by
  induction hrun with
  | refl => exact hc
  | tail hprev hp hstep ih =>
      obtain ⟨new, hnew⟩ := step_history hstep
      have hbefore := ih (D.assume_append new _ (hnew ▸ hassume))
      refine hbefore.step hQ hstep ?_ hassume
      rintro f rfl
      exact hpermit _ f hp

end Config

end Coroutine
