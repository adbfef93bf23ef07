import AioProxmox.Coroutine.Interface
import AioProxmox.Coroutine.Invariance
import Mathlib.Algebra.Order.Monoid.Defs

/-!
# Coroutines - what a task says, whatever the others do

The answered calls of a task are its conversation.  A protocol says which call may follow a
conversation; whether a task keeps to it is read off its text, with nothing known of the
state but a property that holds whenever the task goes on.  So what follows holds among any
other tasks, in any order of turns.

A bound on what the calls of a task cost altogether is a protocol too, and the costs of
composite tasks are the sums of those of their parts.

Main results:

- Definition {lit}`Co.Talks`: a task keeps to a protocol and ends as told.
- Theorem {lit}`Config.Reaches.talks`: so it does in every run of any pool.
- Definition {lit}`Co.Spends` and theorem {lit}`Config.Reaches.spends`: what the calls of a
  task cost.
-/

namespace Coroutine

variable {τ σ σ' ι ρ ε ω α β : Type}

/-! ## Conversations -/

section Conversation

variable [DecidableEq τ] {i : τ} {before : List (Event τ ι ρ ω)} {e : Event τ ι ρ ω}

/-- What an event adds to the conversation of a task. -/
def Event.exchange (i : τ) : Event τ ι ρ ω → Option (ι × ρ)
  | got j q r => if j = i then some (q, r) else none
  | _ => none

/-- The answered calls of a task with their answers, the newest first. -/
def conversation (i : τ) (history : List (Event τ ι ρ ω)) : List (ι × ρ) :=
  history.filterMap (Event.exchange i)

@[simp]
theorem conversation_nil : conversation i ([] : List (Event τ ι ρ ω)) = [] :=
  rfl

/-- An answer of the task's is added to its conversation. -/
@[simp]
theorem conversation_got (q : ι) (r : ρ) :
    conversation i (.got i q r :: before) = (q, r) :: conversation i before := by
  simp [conversation, Event.exchange]

/-- An event that is no answer of the task's adds nothing. -/
theorem conversation_cons_of_none (h : e.exchange i = none) :
    conversation i (e :: before) = conversation i before := by
  simp [conversation, h]

/-- An event of another task adds nothing. -/
theorem Event.exchange_of_actor_ne (h : e.actor ≠ i) : e.exchange i = none := by
  cases e with
  | got j q r => exact if_neg h
  | sent j q => rfl
  | noted j e => rfl
  | locked j => rfl
  | released j => rfl

/-- What the others say is no part of the conversation. -/
theorem conversation_append_of_actor_ne {new : List (Event τ ι ρ ω)}
    (h : ∀ e ∈ new, e.actor ≠ i) : conversation i (new ++ before) = conversation i before := by
  induction new with
  | nil => rfl
  | cons e new ih =>
      rw [List.cons_append,
        conversation_cons_of_none (Event.exchange_of_actor_ne (h e List.mem_cons_self))]
      exact ih fun e' he' => h e' (List.mem_cons_of_mem e he')

end Conversation

/-! ## Protocols -/

namespace Co

/-- The task keeps to a protocol after a conversation, and ends as told.  Of the state {lit}`P`
is known: between two suspensions what the task has read or assigned, and wherever it goes on
after one no more than {lit}`S`, which the task itself keeps. -/
def TalksIn (S : σ → Prop) (may : List (ι × ρ) → ι → Prop) :
    Co σ ι ρ ε ω α → (σ → Prop) → List (ι × ρ) → (Except ε α → List (ι × ρ) → Prop) → Prop
  | done r, _, l, Q => Q r l
  | get k, P, l, Q => ∀ s, P s → (k s).TalksIn S may (· = s) l Q
  | put s k, _, l, Q => S s ∧ k.TalksIn S may (· = s) l Q
  | note _ k, P, l, Q => k.TalksIn S may P l Q
  | call q k, _, l, Q => may l q ∧ ∀ r, (k r).TalksIn S may S ((q, r) :: l) Q
  | acquire k, _, l, Q => k.TalksIn S may S l Q
  | release k, P, l, Q => k.TalksIn S may P l Q

/-- The task keeps to a protocol after a conversation, and ends as told.  Nothing is known of
the state but {lit}`S`. -/
def Talks (S : σ → Prop) (may : List (ι × ρ) → ι → Prop) (p : Co σ ι ρ ε ω α)
    (l : List (ι × ρ)) (Q : Except ε α → List (ι × ρ) → Prop) : Prop :=
  p.TalksIn S may S l Q

section TalksIn

variable {S P P' : σ → Prop} {may : List (ι × ρ) → ι → Prop} {l : List (ι × ρ)}
  {Q : Except ε α → List (ι × ρ) → Prop}

/-- What a task says where less is known it says where more is known. -/
theorem TalksIn.within {p : Co σ ι ρ ε ω α} (hp : p.TalksIn S may P l Q)
    (hP : ∀ s, P' s → P s) : p.TalksIn S may P' l Q := by
  induction p generalizing l with
  | done r => exact hp
  | get k ih => exact fun s hs => hp s (hP s hs)
  | put s k ih => exact hp
  | note e k ih => exact ih hp
  | call q k ih => exact hp
  | acquire k ih => exact hp
  | release k ih => exact ih hp

/-- It may be told less of how it ends, and the protocol may allow more. -/
theorem TalksIn.mono {may' : List (ι × ρ) → ι → Prop} {Q' : Except ε α → List (ι × ρ) → Prop}
    {p : Co σ ι ρ ε ω α} (hp : p.TalksIn S may P l Q) (hmay : ∀ l q, may l q → may' l q)
    (hQ : ∀ r l, Q r l → Q' r l) : p.TalksIn S may' P l Q' := by
  induction p generalizing l P with
  | done r => exact hQ r l hp
  | get k ih => exact fun s hs => ih s (hp s hs)
  | put s k ih => exact ⟨hp.1, ih hp.2⟩
  | note e k ih => exact ih hp
  | call q k ih => exact ⟨hmay l q hp.1, fun r => ih r (hp.2 r)⟩
  | acquire k ih => exact ih hp
  | release k ih => exact ih hp

/-- What follows a task goes on with its conversation. -/
theorem TalksIn.bind {R : Except ε α → List (ι × ρ) → Prop}
    {Q : Except ε β → List (ι × ρ) → Prop} {p : Co σ ι ρ ε ω α} {f : α → Co σ ι ρ ε ω β}
    (hp : p.TalksIn S may P l R) (hP : ∀ s, P s → S s)
    (hf : ∀ a l', R (.ok a) l' → (f a).Talks S may l' Q)
    (herror : ∀ e l', R (.error e) l' → Q (.error e) l') : (p.bind f).TalksIn S may P l Q := by
  induction p generalizing l P with
  | done r =>
      cases r with
      | ok a => exact (hf a l hp).within hP
      | error e => exact herror e l hp
  | get k ih =>
      intro s hs
      refine ih s (hp s hs) ?_
      rintro _ rfl
      exact hP _ hs
  | put s k ih =>
      refine ⟨hp.1, ih hp.2 ?_⟩
      rintro _ rfl
      exact hp.1
  | note e k ih => exact ih hp hP
  | call q k ih => exact ⟨hp.1, fun r => ih r (hp.2 r) fun _ hs => hs⟩
  | acquire k ih => exact ih hp fun _ hs => hs
  | release k ih => exact ih hp hP

/-- A handler goes on with the conversation of the guarded task. -/
theorem TalksIn.handle {R : Except ε α → List (ι × ρ) → Prop} {p : Co σ ι ρ ε ω α}
    {f : ε → Co σ ι ρ ε ω α} (hp : p.TalksIn S may P l R) (hP : ∀ s, P s → S s)
    (hvalue : ∀ a l', R (.ok a) l' → Q (.ok a) l')
    (hf : ∀ e l', R (.error e) l' → (f e).Talks S may l' Q) :
    (p.handle f).TalksIn S may P l Q := by
  induction p generalizing l P with
  | done r =>
      cases r with
      | ok a => exact hvalue a l hp
      | error e => exact (hf e l hp).within hP
  | get k ih =>
      intro s hs
      refine ih s (hp s hs) ?_
      rintro _ rfl
      exact hP _ hs
  | put s k ih =>
      refine ⟨hp.1, ih hp.2 ?_⟩
      rintro _ rfl
      exact hp.1
  | note e k ih => exact ih hp hP
  | call q k ih => exact ⟨hp.1, fun r => ih r (hp.2 r) fun _ hs => hs⟩
  | acquire k ih => exact ih hp fun _ hs => hs
  | release k ih => exact ih hp hP

/-- The lock says nothing. -/
theorem TalksIn.thenRelease {p : Co σ ι ρ ε ω α} (hp : p.TalksIn S may P l Q) :
    p.thenRelease.TalksIn S may P l Q := by
  induction p generalizing l P with
  | done r => exact hp
  | get k ih => exact fun s hs => ih s (hp s hs)
  | put s k ih => exact ⟨hp.1, ih hp.2⟩
  | note e k ih => exact ih hp
  | call q k ih => exact ⟨hp.1, fun r => ih r (hp.2 r)⟩
  | acquire k ih => exact ih hp
  | release k ih => exact ih hp

/-- A task on the second of two states says what it says alone. -/
theorem TalksIn.beside {p : Co σ ι ρ ε ω α} {P' : σ' × σ → Prop} (hp : p.TalksIn S may P l Q)
    (hP : ∀ s, P' s → P s.2) : p.beside.TalksIn (fun s : σ' × σ => S s.2) may P' l Q := by
  induction p generalizing l P P' with
  | done r => exact hp
  | get k ih =>
      intro s hs
      refine ih s.2 (hp s.2 (hP s hs)) ?_
      rintro _ rfl
      rfl
  | put s k ih =>
      intro both _
      refine ⟨hp.1, ih hp.2 ?_⟩
      rintro _ rfl
      rfl
  | note e k ih => exact ih hp hP
  | call q k ih => exact ⟨hp.1, fun r => ih r (hp.2 r) fun _ hs => hs⟩
  | acquire k ih => exact ih hp fun _ hs => hs
  | release k ih => exact ih hp hP

end TalksIn

namespace Talks

variable {S : σ → Prop} {may : List (ι × ρ) → ι → Prop} {l : List (ι × ρ)}
  {Q : Except ε α → List (ι × ρ) → Prop}

/-- A value says nothing. -/
theorem pure {a : α} (h : Q (.ok a) l) : Talks S may (Pure.pure a : Co σ ι ρ ε ω α) l Q :=
  h

/-- An exception says nothing. -/
theorem throw {e : ε} (h : Q (.error e) l) :
    Talks S may (MonadExcept.throw e : Co σ ι ρ ε ω α) l Q :=
  h

/-- A result that is known beforehand says nothing. -/
theorem ofExcept {r : Except ε α} (h : Q r l) :
    Talks S may (Co.ofExcept r : Co σ ι ρ ε ω α) l Q :=
  h

/-- An assignment says nothing. -/
theorem modify {f : σ → σ} {Q : Except ε Unit → List (ι × ρ) → Prop}
    (hf : ∀ s, S s → S (f s)) (h : Q (.ok ()) l) :
    Talks S may (Co.modify f : Co σ ι ρ ε ω Unit) l Q :=
  fun s hs => ⟨hf s hs, h⟩

/-- A remark says nothing. -/
theorem remark {e : ω} {Q : Except ε Unit → List (ι × ρ) → Prop} (h : Q (.ok ()) l) :
    Talks S may (Co.remark e : Co σ ι ρ ε ω Unit) l Q :=
  h

/-- A call is allowed, and the task ends as it is answered. -/
theorem await {may : List (ι × Except ε α) → ι → Prop} {l : List (ι × Except ε α)}
    {Q : Except ε α → List (ι × Except ε α) → Prop} {q : ι} (hq : may l q)
    (h : ∀ r, Q r ((q, r) :: l)) :
    Talks S may (Co.await q : Co σ ι (Except ε α) ε ω α) l Q :=
  ⟨hq, h⟩

/-- The protocol may allow more, and less may be told of the end. -/
theorem mono {may' : List (ι × ρ) → ι → Prop} {Q' : Except ε α → List (ι × ρ) → Prop}
    {p : Co σ ι ρ ε ω α} (hp : Talks S may p l Q) (hmay : ∀ l q, may l q → may' l q)
    (hQ : ∀ r l, Q r l → Q' r l) : Talks S may' p l Q' :=
  TalksIn.mono hp hmay hQ

/-- What follows a task goes on with its conversation. -/
theorem bind {R : Except ε α → List (ι × ρ) → Prop} {Q : Except ε β → List (ι × ρ) → Prop}
    {p : Co σ ι ρ ε ω α} {f : α → Co σ ι ρ ε ω β} (hp : Talks S may p l R)
    (hf : ∀ a l', R (.ok a) l' → Talks S may (f a) l' Q)
    (herror : ∀ e l', R (.error e) l' → Q (.error e) l') : Talks S may (p >>= f) l Q :=
  TalksIn.bind hp (fun _ hs => hs) hf herror

/-- What is read from the state is as the task keeps it. -/
theorem state_bind {Q : Except ε β → List (ι × ρ) → Prop} {f : σ → Co σ ι ρ ε ω β}
    (hf : ∀ s, S s → Talks S may (f s) l Q) : Talks S may (Co.state >>= f) l Q := by
  intro s hs
  refine (hf s hs).within ?_
  rintro _ rfl
  exact hs

/-- A remark before the rest says nothing. -/
theorem remark_bind {e : ω} {Q : Except ε β → List (ι × ρ) → Prop} {f : Unit → Co σ ι ρ ε ω β}
    (hf : Talks S may (f ()) l Q) : Talks S may (Co.remark e >>= f) l Q :=
  hf

/-- Of a result that is known beforehand the rest follows, or its exception ends the task. -/
theorem ofExcept_bind {r : Except ε α} {Q : Except ε β → List (ι × ρ) → Prop}
    {f : α → Co σ ι ρ ε ω β} (hf : ∀ a, r = .ok a → Talks S may (f a) l Q)
    (herror : ∀ e, r = .error e → Q (.error e) l) : Talks S may (Co.ofExcept r >>= f) l Q := by
  cases r with
  | ok a => exact hf a rfl
  | error e => exact herror e rfl

/-- A handler goes on with the conversation of the guarded task. -/
theorem tryCatch {R : Except ε α → List (ι × ρ) → Prop} {p : Co σ ι ρ ε ω α}
    {f : ε → Co σ ι ρ ε ω α} (hp : Talks S may p l R)
    (hvalue : ∀ a l', R (.ok a) l' → Q (.ok a) l')
    (hf : ∀ e l', R (.error e) l' → Talks S may (f e) l' Q) :
    Talks S may (MonadExcept.tryCatch p f) l Q :=
  TalksIn.handle hp (fun _ hs => hs) hvalue hf

/-- The lock says nothing. -/
theorem withLock {p : Co σ ι ρ ε ω α} (hp : Talks S may p l Q) :
    Talks S may p.withLock l Q :=
  TalksIn.thenRelease hp

/-- A task on the second of two states says what it says alone. -/
theorem beside {p : Co σ ι ρ ε ω α} (hp : Talks S may p l Q) :
    Talks (fun s : σ' × σ => S s.2) may p.beside l Q :=
  TalksIn.beside hp fun _ hs => hs

end Talks

/-- A task that makes no calls; how it ends is told by {lit}`R`. -/
def Mute (S : σ → Prop) (R : Except ε α → Prop) (p : Co σ ι ρ ε ω α) : Prop :=
  ∀ l : List (ι × ρ), p.Talks S (fun _ _ => False) l fun r l' => l' = l ∧ R r

namespace Mute

variable {S : σ → Prop} {R : Except ε α → Prop}

/-- A value is mute. -/
theorem pure {a : α} (h : R (.ok a)) : Mute S R (Pure.pure a : Co σ ι ρ ε ω α) :=
  fun _ => ⟨rfl, h⟩

/-- An exception is mute. -/
theorem throw {e : ε} (h : R (.error e)) :
    Mute S R (MonadExcept.throw e : Co σ ι ρ ε ω α) :=
  fun _ => ⟨rfl, h⟩

/-- A result that is known beforehand is mute. -/
theorem ofExcept {r : Except ε α} (h : R r) : Mute S R (Co.ofExcept r : Co σ ι ρ ε ω α) :=
  fun _ => ⟨rfl, h⟩

/-- An assignment that keeps the state is mute. -/
theorem modify {f : σ → σ} {R : Except ε Unit → Prop} (hf : ∀ s, S s → S (f s))
    (h : R (.ok ())) : Mute S R (Co.modify f : Co σ ι ρ ε ω Unit) :=
  fun _ => Talks.modify hf ⟨rfl, h⟩

/-- Mute parts make a mute whole. -/
theorem bind {R' : Except ε β → Prop} {p : Co σ ι ρ ε ω α} {f : α → Co σ ι ρ ε ω β}
    (hp : Mute S R p) (hf : ∀ a, R (.ok a) → Mute S R' (f a))
    (herror : ∀ e, R (.error e) → R' (.error e)) : Mute S R' (p >>= f) := by
  intro l
  refine (hp l).bind (fun a l' h => ?_) fun e l' h => ⟨h.1, herror e h.2⟩
  rw [h.1]
  exact hf a h.2 l

/-- What is read from the state is mute if the rest is. -/
theorem state_bind {R' : Except ε β → Prop} {f : σ → Co σ ι ρ ε ω β}
    (hf : ∀ s, S s → Mute S R' (f s)) : Mute S R' (Co.state >>= f) :=
  fun l => Talks.state_bind fun s hs => hf s hs l

/-- Whatever a mute task may say, it ends with the conversation it found. -/
theorem talks {p : Co σ ι ρ ε ω α} {may : List (ι × ρ) → ι → Prop} {l : List (ι × ρ)}
    {Q : Except ε α → List (ι × ρ) → Prop} (hp : Mute S R p) (hQ : ∀ r, R r → Q r l) :
    Talks S may p l Q :=
  (hp l).mono (fun _ _ h => h.elim) fun r l' h => by
    rw [h.1]
    exact hQ r h.2

/-- What follows a task that makes no calls. -/
theorem talks_bind {p : Co σ ι ρ ε ω α} {f : α → Co σ ι ρ ε ω β}
    {may : List (ι × ρ) → ι → Prop} {l : List (ι × ρ)} {Q : Except ε β → List (ι × ρ) → Prop}
    (hp : Mute S R p) (hf : ∀ a, R (.ok a) → Talks S may (f a) l Q)
    (herror : ∀ e, R (.error e) → Q (.error e) l) : Talks S may (p >>= f) l Q := by
  refine (hp.talks (Q := fun r l' => l' = l ∧ R r) fun r h => ⟨rfl, h⟩).bind ?_ ?_
  · rintro a l' ⟨rfl, h⟩
    exact hf a h
  · rintro e l' ⟨rfl, h⟩
    exact herror e h

end Mute

end Co

/-! ## Runs -/

section Runs

variable [DecidableEq τ] {S : σ → Prop} {may : List (ι × ρ) → ι → Prop} {i : τ}
  {Q : Except ε α → List (ι × ρ) → Prop}

/-- What a thread has still to say after a conversation. -/
def Thread.Talks (S : σ → Prop) (may : List (ι × ρ) → ι → Prop)
    (Q : Except ε α → List (ι × ρ) → Prop) (l : List (ι × ρ)) :
    Thread σ ι ρ ε ω α → Prop
  | fresh p => p.Talks S may l Q
  | parked (.call q k) => ∀ r, (k r).Talks S may ((q, r) :: l) Q
  | parked p => p.Talks S may l Q

/-- What a task has asked was allowed when it asked it. -/
def Asked (may : List (ι × ρ) → ι → Prop) (i : τ) (e : Event τ ι ρ ω)
    (before : List (Event τ ι ρ ω)) : Prop :=
  ∀ q, e = .sent i q → may (conversation i before) q

/-- One segment of a task that keeps to the protocol. -/
theorem Co.TalksIn.advance {P : σ → Prop} {p : Co σ ι ρ ε ω α} {h : Bool}
    {w : World τ σ ι ρ ω} (hp : p.TalksIn S may P (conversation i w.history) Q) (hs : P w.state)
    (hw : Along (Asked may i) w.history) :
    (Thread.parked (p.advance i h w).1).Talks S may Q
        (conversation i (p.advance i h w).2.2.history) ∧
      Along (Asked may i) (p.advance i h w).2.2.history := by
  have hlog : ∀ {w : World τ σ ι ρ ω} {e : Event τ ι ρ ω}, e.exchange i = none →
      (∀ q, e ≠ .sent i q) → Along (Asked may i) w.history →
      conversation i (w.log e).history = conversation i w.history ∧
        Along (Asked may i) (w.log e).history :=
    fun hnone hsent hw => ⟨conversation_cons_of_none hnone, fun q hq => (hsent q hq).elim, hw⟩
  induction p generalizing h w P with
  | done r => exact ⟨hp, hw⟩
  | get k ih => exact ih w.state (hp w.state hs) rfl hw
  | put s k ih => exact ih (w := { w with state := s }) hp.2 rfl hw
  | note e k ih =>
      rcases hlog (w := w) (e := .noted i e) rfl (by simp) hw with ⟨hsame, hw'⟩
      exact ih (w := w.log (.noted i e)) (hsame ▸ hp) hs hw'
  | call q k ih =>
      refine ⟨fun r => ?_, fun q' hq' => ?_, hw⟩
      · exact hp.2 r
      · cases hq'
        exact hp.1
  | acquire k ih => exact ⟨hp, hw⟩
  | release k ih =>
      rcases hlog (w := w) (e := .released i) rfl (by simp) hw with ⟨hsame, hw'⟩
      exact ih (w := w.log (.released i)) (hsame ▸ hp) hs hw'

omit [DecidableEq τ] in
/-- Where it starts from what it keeps, it leaves that. -/
theorem Co.TalksIn.keeps {P : σ → Prop} {p : Co σ ι ρ ε ω α} {l : List (ι × ρ)} {h : Bool}
    {w : World τ σ ι ρ ω} (hp : p.TalksIn S may P l Q) (hP : P w.state) (hS : S w.state) :
    S (p.advance i h w).2.2.state := by
  induction p generalizing h w P l with
  | done r => exact hS
  | get k ih => exact ih w.state (hp w.state hP) rfl hS
  | put s k ih => exact ih (w := { w with state := s }) hp.2 rfl hp.1
  | note e k ih => exact ih (w := w.log (.noted i e)) hp hP hS
  | call q k ih => exact hS
  | acquire k ih => exact hS
  | release k ih => exact ih (w := w.log (.released i)) hp hP hS

/-! ## Costs -/

section Costs

variable {κ : Type} [AddCommMonoid κ] {cost : ι → κ}

/-- What the calls of a conversation have cost. -/
def spent (cost : ι → κ) (l : List (ι × ρ)) : κ :=
  (l.map fun x => cost x.1).sum

@[simp]
theorem spent_nil : spent cost ([] : List (ι × ρ)) = 0 :=
  rfl

@[simp]
theorem spent_cons (q : ι) (r : ρ) (l : List (ι × ρ)) :
    spent cost ((q, r) :: l) = cost q + spent cost l :=
  rfl

/-- Calls of one price cost that as often as there are calls. -/
theorem spent_const (b : κ) (l : List (ι × ρ)) : spent (fun _ => b) l = l.length • b := by
  induction l with
  | nil => rw [spent_nil, List.length_nil, zero_nsmul]
  | cons x l ih => rw [spent_cons, ih, List.length_cons, succ_nsmul']

variable [PartialOrder κ]

/-- The calls of a task cost {lit}`b` altogether, at most. -/
structure Co.Spends (S : σ → Prop) (cost : ι → κ) (b : κ) (p : Co σ ι ρ ε ω α) : Prop where
  nonneg : 0 ≤ b
  talks : ∀ l, p.Talks S (fun l' q => spent cost l' + cost q ≤ spent cost l + b) l
    fun _ l' => spent cost l' ≤ spent cost l + b

namespace Co.Spends

variable {S : σ → Prop} {b b₁ b₂ : κ}

/-- A task that makes no calls costs nothing. -/
theorem mute {R : Except ε α → Prop} {p : Co σ ι ρ ε ω α} (hp : Mute S R p) :
    Spends S cost 0 p where
  nonneg := le_refl 0
  talks l := hp.talks fun _ _ => by rw [add_zero]

/-- A value costs nothing. -/
theorem pure (a : α) : Spends S cost 0 (Pure.pure a : Co σ ι ρ ε ω α) :=
  mute (.pure (R := fun _ => True) trivial)

/-- An exception costs nothing. -/
theorem throw (e : ε) : Spends S cost 0 (MonadExcept.throw e : Co σ ι ρ ε ω α) :=
  mute (.throw (R := fun _ => True) trivial)

/-- A remark costs nothing. -/
theorem remark (e : ω) : Spends S cost 0 (Co.remark e : Co σ ι ρ ε ω Unit) where
  nonneg := le_refl 0
  talks l := Talks.remark (by rw [add_zero])

/-- A remark before the rest adds nothing to what that costs. -/
theorem remark_bind {e : ω} {f : Unit → Co σ ι ρ ε ω β} (hf : Spends S cost b (f ())) :
    Spends S cost b (Co.remark e >>= f) where
  nonneg := hf.nonneg
  talks l := Talks.remark_bind (hf.talks l)

/-- Waiting for the lock costs nothing. -/
theorem withLock {p : Co σ ι ρ ε ω α} (hp : Spends S cost b p) : Spends S cost b p.withLock where
  nonneg := hp.nonneg
  talks l := (hp.talks l).withLock

/-- Reading the state costs nothing. -/
theorem state_bind {f : σ → Co σ ι ρ ε ω β} (hb : 0 ≤ b) (hf : ∀ s, S s → Spends S cost b (f s)) :
    Spends S cost b (Co.state >>= f) where
  nonneg := hb
  talks l := Talks.state_bind fun s hs => (hf s hs).talks l

/-- A task costs beside another state what it costs alone. -/
theorem beside {p : Co σ ι ρ ε ω α} (hp : Spends S cost b p) :
    Spends (fun s : σ' × σ => S s.2) cost b p.beside where
  nonneg := hp.nonneg
  talks l := (hp.talks l).beside

variable [IsOrderedAddMonoid κ]

/-- A call costs what it costs. -/
theorem await {q : ι} (hb : 0 ≤ b) (hq : cost q ≤ b) :
    Spends S cost b (Co.await q : Co σ ι (Except ε α) ε ω α) where
  nonneg := hb
  talks l := Talks.await (add_le_add_right hq _) fun r => by
    rw [spent_cons, add_comm]
    exact add_le_add_right hq _

/-- A bound may be larger. -/
theorem mono {p : Co σ ι ρ ε ω α} (hp : Spends S cost b₁ p) (h : b₁ ≤ b₂) :
    Spends S cost b₂ p where
  nonneg := hp.nonneg.trans h
  talks l := (hp.talks l).mono (fun _ _ hq => hq.trans (add_le_add_right h _))
    fun _ _ hl => hl.trans (add_le_add_right h _)

/-- What follows a task has what is left. -/
theorem next {p : Co σ ι ρ ε ω β} (hp : Spends S cost b₂ p) {l l' : List (ι × ρ)}
    (hl : spent cost l' ≤ spent cost l + b₁) :
    p.Talks S (fun l' q => spent cost l' + cost q ≤ spent cost l + (b₁ + b₂)) l'
      fun _ l' => spent cost l' ≤ spent cost l + (b₁ + b₂) := by
  have hrest : spent cost l' + b₂ ≤ spent cost l + (b₁ + b₂) := by
    rw [← add_assoc]
    exact add_le_add_left hl b₂
  exact (hp.talks l').mono (fun _ _ hq => hq.trans hrest) fun _ _ hend => hend.trans hrest

/-- A sequence costs what its parts cost. -/
theorem bind {p : Co σ ι ρ ε ω α} {f : α → Co σ ι ρ ε ω β} (hp : Spends S cost b₁ p)
    (hf : ∀ a, Spends S cost b₂ (f a)) (hb : 0 ≤ b₂) : Spends S cost (b₁ + b₂) (p >>= f) where
  nonneg := add_nonneg hp.nonneg hb
  talks l := by
    have hle : b₁ ≤ b₁ + b₂ := le_add_of_nonneg_right hb
    refine ((hp.talks l).mono (fun _ _ hq => hq.trans (add_le_add_right hle _)) fun _ _ h => h).bind
      (fun a l' hl => (hf a).next hl) fun _ _ hl => hl.trans (add_le_add_right hle _)

/-- What follows a task costs nothing. -/
theorem bind_free {p : Co σ ι ρ ε ω α} {f : α → Co σ ι ρ ε ω β} (hp : Spends S cost b p)
    (hf : ∀ a, Spends S cost 0 (f a)) : Spends S cost b (p >>= f) :=
  (hp.bind hf (le_refl 0)).mono (add_zero b).le

/-- A task and its handler cost what both cost. -/
theorem tryCatch {p : Co σ ι ρ ε ω α} {f : ε → Co σ ι ρ ε ω α} (hp : Spends S cost b₁ p)
    (hf : ∀ e, Spends S cost b₂ (f e)) (hb : 0 ≤ b₂) :
    Spends S cost (b₁ + b₂) (MonadExcept.tryCatch p f) where
  nonneg := add_nonneg hp.nonneg hb
  talks l := by
    have hle : b₁ ≤ b₁ + b₂ := le_add_of_nonneg_right hb
    refine ((hp.talks l).mono (fun _ _ hq => hq.trans (add_le_add_right hle _))
      fun _ _ h => h).tryCatch (fun _ _ hl => hl.trans (add_le_add_right hle _))
      fun e l' hl => (hf e).next hl

/-- What follows a task that makes no calls. -/
theorem mute_bind {R : Except ε α → Prop} {p : Co σ ι ρ ε ω α} {f : α → Co σ ι ρ ε ω β}
    (hp : Mute S R p) (hb : 0 ≤ b) (hf : ∀ a, R (.ok a) → Spends S cost b (f a)) :
    Spends S cost b (p >>= f) where
  nonneg := hb
  talks l := hp.talks_bind (fun a ha => (hf a ha).talks l) fun _ _ => le_add_of_nonneg_right hb

end Co.Spends

end Costs

namespace Config

variable {permit : Config τ σ ι ρ ε ω α → Action τ σ ρ → Prop} {c c' : Config τ σ ι ρ ε ω α}

/-- The task has kept to the protocol, and will. -/
structure Conversing (S : σ → Prop) (may : List (ι × ρ) → ι → Prop) (i : τ)
    (Q : Except ε α → List (ι × ρ) → Prop) (c : Config τ σ ι ρ ε ω α) : Prop where
  thread : (c.pool i).Talks S may Q (conversation i c.world.history)
  asked : Along (Asked may i) c.world.history

/-- A segment of the task, after what it has been told. -/
theorem Conversing.advanceTask {p : Co σ ι ρ ε ω α} {h : Bool} {w : World τ σ ι ρ ω}
    (hp : p.Talks S may (conversation i w.history) Q) (hs : S w.state)
    (hw : Along (Asked may i) w.history) : Conversing S may i Q (c.advanceTask i p h w) := by
  rcases hp.advance (h := h) hs hw with ⟨hthread, hasked⟩
  exact ⟨by rw [advanceTask_pool_self]; exact hthread, hasked⟩

/-- A step of another task is no part of the conversation. -/
theorem Conversing.other {j : τ} (hc : Conversing S may i Q c)
    (hstep : ∃ new, StepOf j c c' new) (hij : i ≠ j) : Conversing S may i Q c' := by
  rcases hstep with ⟨new, hof⟩
  have hactor : ∀ e ∈ new, e.actor ≠ i := fun e he => hof.actor e he ▸ hij.symm
  constructor
  · rw [hof.others i hij, hof.history, conversation_append_of_actor_ne hactor]
    exact hc.thread
  · rw [hof.history]
    clear hof
    induction new with
    | nil => exact hc.asked
    | cons e new ih =>
        refine ⟨fun q hq => ?_, ih fun e' he' => hactor e' (List.mem_cons_of_mem e he')⟩
        exact absurd (hq ▸ rfl) (hactor e List.mem_cons_self)

/-- Whoever takes the step, the task goes on keeping to the protocol. -/
theorem Conversing.step {a : Action τ σ ρ} (hc : Conversing S may i Q c)
    (hs : S c.world.state) (hstep : c.step a = some c') : Conversing S may i Q c' := by
  have hthread := hc.thread
  rcases step_cases hstep with ⟨j, p, rfl, hpool, rfl⟩ | ⟨j, r, q, k, rfl, hpool, rfl⟩ |
    ⟨j, k, rfl, hpool, -, rfl⟩ | ⟨f, rfl, rfl⟩
  · by_cases hij : i = j
    · subst hij
      rw [hpool] at hthread
      exact .advanceTask hthread hs hc.asked
    · exact hc.other (c.advanceTask_stepOf j p false [] rfl (by simp) fun _ => ⟨p, hpool⟩) hij
  · by_cases hij : i = j
    · subst hij
      rw [hpool] at hthread
      refine .advanceTask ?_ hs ⟨fun q' hq' => by contradiction, hc.asked⟩
      simpa using hthread r
    · exact hc.other (c.advanceTask_stepOf j (k r) _ [.got j q r] rfl
        (by simp [Event.actor]) (by simp)) hij
  · by_cases hij : i = j
    · subst hij
      rw [hpool] at hthread
      refine .advanceTask ?_ hs ⟨fun q' hq' => by contradiction, hc.asked⟩
      exact (conversation_cons_of_none (e := .locked i) rfl).symm ▸ hthread
    · exact hc.other (c.advanceTask_stepOf j k true [.locked j] rfl
        (by simp [Event.actor]) (by simp)) hij
  · exact ⟨hthread, hc.asked⟩

/-- Whatever the others do, a task that keeps to a protocol has asked nothing but what the
protocol allowed, and where it has ended it has ended as told. -/
theorem Reaches.talks {s : σ} {tasks : τ → Co σ ι ρ ε ω α}
    (hp : (tasks i).Talks S may [] Q) (hpermit : ∀ c a, permit c a → S c.world.state)
    (hrun : Reaches permit (.initial s tasks) c) :
    Along (Asked may i) c.world.history ∧
      ∀ r, c.result i = some r → Q r (conversation i c.world.history) := by
  have hc : Conversing S may i Q c :=
    hrun.invariant (fun _ _ _ hallowed hstep hc => hc.step (hpermit _ _ hallowed) hstep)
      ⟨hp, trivial⟩
  refine ⟨hc.asked, fun r hr => ?_⟩
  have hthread := hc.thread
  unfold result at hr
  split at hr
  · rename_i r' hpool
    cases hr
    rw [hpool] at hthread
    exact hthread
  · contradiction

/-- All tasks keep to their protocols, and the state is as they keep it. -/
structure AllConversing (S : σ → Prop) (may : τ → List (ι × ρ) → ι → Prop)
    (Q : τ → Except ε α → List (ι × ρ) → Prop) (c : Config τ σ ι ρ ε ω α) : Prop where
  state : S c.world.state
  tasks : ∀ i, Conversing S (may i) i (Q i) c

/-- Whoever takes the step, all tasks go on keeping to theirs and to the state. -/
theorem AllConversing.step {may : τ → List (ι × ρ) → ι → Prop}
    {Q : τ → Except ε α → List (ι × ρ) → Prop} {a : Action τ σ ρ}
    (hc : AllConversing S may Q c)
    (henvironment : ∀ f, a = .environment f → S (f c.world.state))
    (hstep : c.step a = some c') : AllConversing S may Q c' := by
  refine ⟨?_, fun i => (hc.tasks i).step hc.state hstep⟩
  rcases step_cases hstep with ⟨j, p, rfl, hpool, rfl⟩ | ⟨j, r, q, k, rfl, hpool, rfl⟩ |
    ⟨j, k, rfl, hpool, -, rfl⟩ | ⟨f, rfl, rfl⟩
  · have hthread := (hc.tasks j).thread
    rw [hpool] at hthread
    exact Co.TalksIn.keeps hthread hc.state hc.state
  · have hthread := (hc.tasks j).thread
    rw [hpool] at hthread
    exact Co.TalksIn.keeps (hthread r) hc.state hc.state
  · have hthread := (hc.tasks j).thread
    rw [hpool] at hthread
    exact Co.TalksIn.keeps hthread hc.state hc.state
  · exact henvironment f rfl

/-- What every task keeps of the state, and the environment as well, holds wherever a run goes
on. -/
theorem Reaches.keeping {may : τ → List (ι × ρ) → ι → Prop}
    {Q : τ → Except ε α → List (ι × ρ) → Prop} {s : σ} {tasks : τ → Co σ ι ρ ε ω α}
    (hp : ∀ i, (tasks i).Talks S (may i) [] (Q i)) (hs : S s)
    (henvironment : ∀ c f, permit c (.environment f) → S c.world.state → S (f c.world.state))
    (hrun : Reaches permit (.initial s tasks) c) :
    Reaches (fun c _ => S c.world.state) (.initial s tasks) c := by
  suffices h : AllConversing S may Q c ∧
      Reaches (fun c _ => S c.world.state) (.initial s tasks) c from h.2
  induction hrun with
  | refl => exact ⟨⟨hs, fun i => ⟨hp i, trivial⟩⟩, .refl _⟩
  | tail _ hallowed hstep ih =>
      refine ⟨ih.1.step (fun f hf => ?_) hstep, ih.2.tail ih.1.state hstep⟩
      subst hf
      exact henvironment _ f hallowed ih.1.state

/-- Whatever the others do, what a task has asked so far is within its costs. -/
theorem Reaches.spends {κ : Type} [AddCommMonoid κ] [PartialOrder κ] [IsOrderedAddMonoid κ]
    {cost : ι → κ} {b : κ} {s : σ} {tasks : τ → Co σ ι ρ ε ω α}
    (hp : (tasks i).Spends S cost b) (hpermit : ∀ c a, permit c a → S c.world.state)
    (hrun : Reaches permit (.initial s tasks) c) :
    Along (Asked (fun l q => spent cost l + cost q ≤ b) i) c.world.history := by
  refine (hrun.talks ((hp.talks []).mono (fun l q hq => ?_) fun _ _ h => h) hpermit).1
  simpa using hq

end Config

end Runs

end Coroutine
