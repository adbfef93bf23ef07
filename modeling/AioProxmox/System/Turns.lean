import AioProxmox.System.Provenance

/-!
# System - who may do what, and when

The tasks that share a client take turns: a login has an occasion in what its own task has
seen, while a task holds the lock nobody else moves the client or asks a candidate, and the
lock never keeps a pool of calls from ending.

Main results:

- Theorem {lit}`logins_occasioned`: while the ticket is fresh a task logs in after a 401 of
  its own, or because it was asked to.
- Theorem {lit}`turns_exclude`: what the others leave alone while a task holds the lock.
- Theorem {lit}`calls_end`: a run of finitely many calls ends, with every call ended and the
  lock free.
-/

namespace AioProxmox

open Coroutine

section Turns

variable {τ σ : Type} {text : Json → String} {calls : τ → SystemCall σ}

/-! ## Occasions of logins -/

/-- The ticket in use is not due at a reading of the clock. -/
def Machine.Fresh (m : Machine) : Prop :=
  ∀ auth, m.client.auth = .ticket auth → auth.due m.monotonic = false

/-- A post of a login is made by a call that logs in, or after a 401 of the same task. -/
def OccasionedLogin (calls : τ → SystemCall σ) (e : Event τ Exchange Outcome Remark)
    (before : List (Event τ Exchange Outcome Remark)) : Prop :=
  ∀ i q, e = .sent i q → q.purpose.isLogin = true →
    (calls i).logsIn = true ∨ Unauthenticated i before

/-- A 401 stays one. -/
theorem Unauthenticated.mono {i : τ} {history history' : List (Event τ Exchange Outcome Remark)}
    (h : Unauthenticated i history) (hsub : history ⊆ history') : Unauthenticated i history' := by
  rcases h with ⟨q, r, path, message, endpoint, hgot, hrest⟩
  exact ⟨q, r, path, message, endpoint, hsub hgot, hrest⟩

/-- What was sent had its occasion then, and has it still. -/
theorem OccasionedLogin.of_mem {i : τ} {q : Exchange}
    {history : List (Event τ Exchange Outcome Remark)}
    (h : Along (OccasionedLogin calls) history) (hsent : .sent i q ∈ history)
    (hlogin : q.purpose.isLogin = true) :
    (calls i).logsIn = true ∨ Unauthenticated i history := by
  induction history with
  | nil => contradiction
  | cons e before ih =>
      have hgrows : Unauthenticated i before → Unauthenticated i (e :: before) :=
        fun h => h.mono (List.subset_cons_self _ _)
      rcases List.mem_cons.mp hsent with heq | hbefore
      · exact (h.1 i q heq.symm hlogin).imp_right hgrows
      · exact (ih h.2 hbefore).imp_right hgrows

/-- The ticket is fresh, answers follow what they answer, and every login had an occasion. -/
structure Occasioned (calls : τ → SystemCall σ) (w : World τ Machine Exchange Outcome Remark) :
    Prop where
  fresh : w.state.Fresh
  answers : ∀ i q r, .got i q r ∈ w.history → .sent i q ∈ w.history
  sent : Along (OccasionedLogin calls) w.history

namespace Occasioned

variable {w : World τ Machine Exchange Outcome Remark}

/-- An answer to what was sent, or a login with an occasion, may be logged. -/
theorem log (h : Occasioned calls w) {e : Event τ Exchange Outcome Remark}
    (hgot : ∀ i q r, e = .got i q r → .sent i q ∈ w.history)
    (he : OccasionedLogin calls e w.history) : Occasioned calls (w.log e) where
  fresh := h.fresh
  answers i q r hin := by
    rcases List.mem_cons.mp hin with heq | hbefore
    · exact List.mem_cons_of_mem e (hgot i q r heq.symm)
    · exact List.mem_cons_of_mem e (h.answers i q r hbefore)
  sent := ⟨he, h.sent⟩

/-- An assignment that keeps the ticket fresh. -/
theorem assign (h : Occasioned calls w) {m : Machine} (hfresh : m.Fresh) :
    Occasioned calls { w with state := m } where
  fresh := hfresh
  answers := h.answers
  sent := h.sent

/-- The occasion of a login, told from what was sent. -/
theorem occasion (h : Occasioned calls w) {i : τ} (ho : Occasion (calls i).logsIn i w) :
    (calls i).logsIn = true ∨ Unauthenticated i w.history := by
  cases ho with
  | due hauth hdue =>
      rw [h.fresh _ hauth] at hdue
      contradiction
  | unauthenticated hrefused => exact .inr hrefused
  | posted hposted =>
      rcases hposted with ⟨q, r, hgot, hlogin⟩
      exact OccasionedLogin.of_mem h.sent (h.answers i q r hgot) hlogin
  | asked hasked => exact .inl hasked

end Occasioned

/-- A ticket is not due when it is handed out. -/
theorem due_at_birth {auth : ProxmoxHTTPAuth} {now : ℚ} (h : auth.birthTime = now) :
    auth.due now = false := by
  simp only [ProxmoxHTTPAuth.due, h, sub_self]
  decide

/-- What leaves birth time and clock alone leaves the ticket fresh. -/
theorem fresh_of_auth {m m' : Machine} (h : m.Fresh) (hclock : m'.monotonic = m.monotonic)
    (hauth : m'.client.auth = m.client.auth ∨
      ∃ url, m'.client.auth = m.client.auth.setBaseUrl url) :
    m'.Fresh := by
  intro auth hticket
  rw [hclock]
  rcases hauth with hsame | ⟨url, hurl⟩
  · exact h auth (hsame ▸ hticket)
  · cases hold : m.client.auth with
    | token old =>
        rw [hurl, hold] at hticket
        contradiction
    | ticket old =>
        rw [hurl, hold] at hticket
        cases hticket
        exact h old hold

/-- A pool of calls logs in on occasion. -/
theorem conduct_occasioned : Conduct text calls (worldDiscipline (Occasioned calls)) := by
  have hquiet : ∀ (e : Event τ Exchange Outcome Remark) before,
      (∀ i q, e = .sent i q → q.purpose.isLogin = false) → OccasionedLogin calls e before := by
    intro e before he i q heq hlogin
    rw [he i q heq] at hlogin
    contradiction
  refine .ofInvariant (fun w e hw hinternal => hw.log ?_ (hquiet e _ ?_))
    (fun i w q r hw hsent => hw.log ?_ (hquiet _ _ ?_)) (fun w m hw ha => hw.assign ?_)
    (fun i w auth purpose timeout data hw hauth hform ho => hw.log ?_ ?_)
    (fun i w q hw hattempt => hw.log ?_ (hquiet _ _ ?_))
    (fun i w names replace client hw _ hlearn => hw.assign ?_) (fun w m hw hm => hw.assign ?_)
  · rintro i q r rfl
    exact hinternal.elim
  · rintro i q rfl
    exact hinternal.elim
  · intro i' q' r' heq
    cases heq
    exact hsent
  · intro i' q' heq
    contradiction
  · rcases ha.adopted with ⟨auth, auth', hauth, rfl, hadopted⟩ | rfl
    · intro auth'' hauth''
      cases hauth''
      have hfresh := hw.fresh auth hauth
      rcases hadopted.birth with hsame | hnow
      · unfold ProxmoxHTTPAuth.due at hfresh ⊢
        rw [hsame]
        exact hfresh
      · exact due_at_birth hnow
    · exact hw.fresh
  · intro i' q r heq
    contradiction
  · intro i' q heq _
    cases heq
    exact hw.occasion ho
  · intro i' q' r heq
    contradiction
  · intro i' q' heq
    cases heq
    cases hattempt with
    | request hrequest => rfl
    | probe hrequest => rfl
  · exact fresh_of_auth hw.fresh rfl (.inl (ProxmoxVE.learnHosts_auth hlearn))
  · cases hm with
    | @points index host hhost => exact fresh_of_auth hw.fresh rfl (.inr ⟨_, rfl⟩)
    | misses hnone => exact fresh_of_auth hw.fresh rfl (.inl rfl)

/-- Beside the calls nothing touches the client, and the clock never makes the ticket due. -/
def KeepsFresh (c : Config τ (σ × Machine) Exchange Outcome Exc Remark Unit) :
    Action τ (σ × Machine) Outcome → Prop
  | .environment f => (f c.world.state).2.client = c.world.state.2.client ∧
      (f c.world.state).2.Fresh
  | _ => True

/-- In every run of any calls in which the ticket never gets due, every post of a login is
made by a call that logs in of its own accord, or by a task whose own request was answered
401 before. -/
theorem logins_occasioned [DecidableEq τ] (text : Json → String) (calls : τ → SystemCall σ)
    (s : σ) {m : Machine} (hm : m.Fresh)
    {c : Config τ (σ × Machine) Exchange Outcome Exc Remark Unit}
    (hrun : Config.Reaches KeepsFresh (.initial (s, m) fun i => (calls i).run text) c) :
    Along (OccasionedLogin calls) c.world.history := by
  have hC : Conduct text calls (worldDiscipline (Occasioned calls)) := conduct_occasioned
  have hkept := hC.kept (fun _ => trivial) (s := s) (m := m)
    ⟨hm, fun _ _ _ hin => by contradiction, trivial⟩ trivial
  refine (hkept.reaches (fun c f henv history hw => ?_) hrun).sent
  exact hw.assign henv.2

/-- Everybody asks for the nodes. -/
def askForNodes : Fin 2 → SystemCall Unit :=
  fun _ => .host (.client (.request { method := "GET", path := "nodes" }))

def askAndLogin {τ : Type} (first other : τ) : List (Action τ (Unit × Machine) Outcome) :=
  [.start first, .start other, .resume first (.ok { status := 401 })]

/-- The schedule lets no time pass. -/
theorem askAndLogin_keepsFresh
    (c : Config (Fin 2) (Unit × Machine) Exchange Outcome Exc Remark Unit) :
    ∀ a ∈ askAndLogin 0 1, KeepsFresh c a := by
  simp [askAndLogin, KeepsFresh]

/-- A login after a 401. -/
theorem logins_occasioned_witness :
    ∃ (q : Exchange) (before : List (Event (Fin 2) Exchange Outcome Remark)),
      q.purpose.isLogin = true ∧ Unauthenticated 0 before := by
  obtain ⟨c, q, before, hrun, hhistory, hlogin⟩ : ∃ c q before, Config.run
      (.initial ((), ⟨unloggedAt "pve", 0⟩) fun i => (askForNodes i).run strOnly)
        (askAndLogin 0 1) = some c ∧ c.world.history = .sent 0 q :: before ∧
      q.purpose.isLogin = true :=
    ⟨_, _, _, by and_intros <;> with_unfolding_all rfl⟩
  have hfresh : Machine.Fresh ⟨unloggedAt "pve", 0⟩ := by
    intro auth hauth
    cases hauth
    exact due_at_birth rfl
  have hall := logins_occasioned strOnly askForNodes () hfresh
    (Config.reaches_of_run askAndLogin_keepsFresh hrun)
  rw [hhistory] at hall
  exact ⟨q, before, hlogin, (hall.1 0 q rfl hlogin).resolve_left (by decide)⟩

/-! ## The lock -/

/-- The client stays on its host, and nothing happens to a candidate. -/
structure Aside (w w' : World τ Machine Exchange Outcome Remark) : Prop where
  host : w'.state.client.host = w.state.client.host
  baseUrl : w'.state.client.baseUrl = w.state.client.baseUrl
  auth : w'.state.client.auth.baseUrl = w.state.client.auth.baseUrl
  candidates : ∃ new, w'.history = new ++ w.history ∧ ∀ e ∈ new, ¬ ofCandidate e

/-- Nothing done is aside. -/
theorem Aside.refl (w : World τ Machine Exchange Outcome Remark) : Aside w w :=
  ⟨rfl, rfl, rfl, [], rfl, by simp⟩

/-- What is aside may follow each other. -/
theorem Aside.trans {w₁ w₂ w₃ : World τ Machine Exchange Outcome Remark} (h₁ : Aside w₁ w₂)
    (h₂ : Aside w₂ w₃) : Aside w₁ w₃ := by
  rcases h₁.candidates with ⟨new₁, hnew₁, hnone₁⟩
  rcases h₂.candidates with ⟨new₂, hnew₂, hnone₂⟩
  refine ⟨h₂.host.trans h₁.host, h₂.baseUrl.trans h₁.baseUrl, h₂.auth.trans h₁.auth,
    new₂ ++ new₁, by rw [hnew₂, hnew₁, List.append_assoc], fun e he => ?_⟩
  rcases List.mem_append.mp he with he | he
  · exact hnone₂ e he
  · exact hnone₁ e he

/-- An event that is none of a candidate is aside. -/
theorem Aside.log (w : World τ Machine Exchange Outcome Remark)
    {e : Event τ Exchange Outcome Remark} (he : ¬ ofCandidate e) : Aside w (w.log e) :=
  ⟨rfl, rfl, rfl, [e], rfl, by simpa using he⟩

/-- An assignment to the client that leaves host and URLs alone. -/
theorem Aside.assign {w : World τ Machine Exchange Outcome Remark} {m : Machine}
    (hhost : m.client.host = w.state.client.host)
    (hurl : m.client.baseUrl = w.state.client.baseUrl)
    (hauth : m.client.auth.baseUrl = w.state.client.auth.baseUrl) :
    Aside w { w with state := m } :=
  ⟨hhost, hurl, hauth, [], rfl, by simp⟩

/-- News leaves the host in use alone. -/
theorem ProxmoxVE.learnHosts_host {c c' : ProxmoxVE} {names : List Json} {replace : Bool}
    (h : c.learnHosts names replace = .ok c') :
    c'.host = c.host ∧ c'.baseUrl = c.baseUrl := by
  unfold ProxmoxVE.learnHosts at h
  rcases hcurrent : c.host with e | current
  · rw [hcurrent] at h
    contradiction
  · rw [hcurrent] at h
    cases h
    have hlisted : ∀ kept : List String,
        current ∈ if current ∈ kept then kept else kept ++ [current] := by
      intro kept
      split_ifs with hkept
      · exact hkept
      · exact List.mem_append_right kept (List.mem_singleton_self current)
    exact ⟨ProxmoxVE.host_eq_ok_iff.mpr (List.getElem?_idxOf (hlisted _)), rfl⟩

/-- While a task holds the lock, the others keep aside. -/
def turnDiscipline : Discipline τ Machine Exchange Outcome Remark where
  assume _ := True
  environment _ s s' := s'.client = s.client
  suspended _ := True
  free _ := True
  rely _ h w w' := h = true → Aside w w'
  assume_tail _ _ _ := trivial
  rely_refl _ _ w _ := .refl w
  rely_trans _ _ _ _ _ h₁ h₂ hh := (h₁ hh).trans (h₂ hh)
  rely_weaken _ _ _ _ hh := by contradiction
  environment_suspended _ _ _ _ _ := trivial
  environment_rely _ _ w s henv _ _ := .assign (by rw [henv]) (by rw [henv]) (by rw [henv])
  environment_free _ _ _ _ _ := trivial

/-- Only a search moves the client, and it has the lock. -/
theorem conduct_turns : Conduct text calls turnDiscipline := by
  have haside : ∀ i (w w' : World τ Machine Exchange Outcome Remark), Aside w w' →
      turnDiscipline.Allows i false w w' :=
    fun i w w' h => ⟨fun _ _ _ => h, fun _ _ => trivial⟩
  have hfree : ∀ i (w w' : World τ Machine Exchange Outcome Remark),
      turnDiscipline.Allows i true w w' :=
    fun i w w' => ⟨fun _ _ hh => by contradiction, fun _ _ => trivial⟩
  have hexchanges : ∀ (i : τ) h w (q : Exchange), (q.purpose = .probe true → h = true) →
      Exchanges turnDiscipline i h w q := by
    intro i h w q hprobe
    cases h with
    | true => exact fun _ => ⟨hfree i _ _, trivial, fun w₂ r _ _ _ => ⟨hfree i _ _, trivial⟩⟩
    | false =>
        have hnone : q.purpose ≠ .probe true := fun heq => absurd (hprobe heq) (by decide)
        exact fun _ => ⟨haside i _ _ (.log w hnone), trivial, fun w₂ r _ _ _ =>
          ⟨haside i _ _ (.log w₂ hnone), trivial⟩⟩
  have hadopts : ∀ (i : τ) w m, turnDiscipline.suspended w → Adopts w m →
      Changes turnDiscipline i w m := by
    intro i w m _ ha
    refine ⟨haside i _ _ ?_, trivial⟩
    rcases ha.adopted with ⟨auth, auth', hauth, rfl, hadopted⟩ | rfl
    · refine .assign rfl rfl ?_
      rw [hauth, hadopted.credentials]
      rfl
    · exact .refl w
  constructor
  · exact fun i w e _ _ => ⟨haside i _ _ (.log w not_false), trivial⟩
  · exact fun i w data hw hdata => wp_adoptTokens_of_changes (hadopts i) hw hdata
  · exact fun i w c hw => hadopts i w _ hw (.capabilities c)
  · intro i w auth purpose timeout data _ _ hform _
    refine hexchanges i false w _ fun heq => ?_
    have hlogin := hform.isLogin
    rw [show purpose = .probe true from heq] at hlogin
    contradiction
  · exact fun i h w q _ _ hprobe => hexchanges i h w q hprobe
  · intro i w names replace client _ _ hlearn
    rcases ProxmoxVE.learnHosts_host hlearn with ⟨hhost, hurl⟩
    refine ⟨haside i _ _ (.assign hhost hurl ?_), trivial⟩
    dsimp only
    rw [ProxmoxVE.learnHosts_auth hlearn]
  · exact fun i w m => hfree i _ _
  · exact fun _ _ _ _ => trivial
  · exact fun i w _ _ _ => ⟨hfree i _ _, trivial⟩
  · exact fun i w _ _ => ⟨hfree i _ _, trivial, trivial⟩

/-- In every run of any calls, while a task holds the lock a turn of any other task leaves the
host in use and the URLs as they are, asks no candidate and ends the probe of none. -/
theorem turns_exclude [DecidableEq τ] (text : Json → String) (calls : τ → SystemCall σ)
    (s : σ) (m : Machine) {c c' : Config τ (σ × Machine) Exchange Outcome Exc Remark Unit}
    (hrun : Config.Reaches SparesClient (.initial (s, m) fun i => (calls i).run text) c)
    {i j : τ} (hholder : c.holder = some j) (hij : i ≠ j) {a : Action τ (σ × Machine) Outcome}
    (ha : a = .start i ∨ ∃ r, a = .resume i r) (hstep : c.step a = some c') :
    Aside c.world.second c'.world.second := by
  have hC : Conduct text calls turnDiscipline := conduct_turns
  have hkept := hC.kept (fun _ => trivial) (s := s) (m := m) trivial trivial
  have hrespects := hkept.respects (fun c f henv => henv c.world.state) hrun
  refine hrespects.others (fun _ => Co.ended_lasting _) hkept.assume hij.symm ha ?_ hstep rfl
  rw [hholder]
  exact fun heq => hij (Option.some.inj heq).symm

/-- One task looks for another host, and the other hears that there is a third. -/
def searchAndHear : Fin 2 → SystemCall Unit :=
  ![.host (.client (.failover none false)), .learnHosts [.str "192.0.2.3"] true]

def toTheSearch {τ : Type} (i : τ) : List (Action τ (Unit × Machine) Outcome) :=
  [.start i, .lock i]

/-- Nothing but calls act in the schedule. -/
theorem toTheSearch_sparesClient
    (c : Config (Fin 2) (Unit × Machine) Exchange Outcome Exc Remark Unit) :
    ∀ a ∈ toTheSearch 0, SparesClient c a := by
  simp [toTheSearch, SparesClient]

/-- The host list is replaced under a search, which goes on where it is. -/
theorem turns_exclude_witness :
    ∃ c c' : Config (Fin 2) (Unit × Machine) Exchange Outcome Exc Remark Unit,
      c.world.state.2.client.hosts = ["192.0.2.1", "192.0.2.2"] ∧
      c'.world.state.2.client.hosts = ["192.0.2.1", "192.0.2.3", "192.0.2.2"] ∧
      Aside c.world.second c'.world.second := by
  obtain ⟨c, c', hrun, hstep, hholder, hbefore, hafter⟩ : ∃ c c', Config.run
      (.initial ((), ⟨.loggedIn ["192.0.2.1", "192.0.2.2"], 0⟩)
        fun i => (searchAndHear i).run strOnly) (toTheSearch 0) = some c ∧
      c.step (.start 1) = some c' ∧ c.holder = some 0 ∧
      c.world.state.2.client.hosts = ["192.0.2.1", "192.0.2.2"] ∧
      c'.world.state.2.client.hosts = ["192.0.2.1", "192.0.2.3", "192.0.2.2"] :=
    ⟨_, _, by and_intros <;> with_unfolding_all rfl⟩
  exact ⟨c, c', hbefore, hafter, turns_exclude strOnly searchAndHear () _
    (Config.reaches_of_run toTheSearch_sparesClient hrun) hholder (by decide) (.inl rfl) hstep⟩

/-! ## The end -/

/-- A run of finitely many calls cannot go on forever, and where it cannot go on every call has
ended and the lock is free. -/
theorem calls_end [Fintype τ] [DecidableEq τ] (text : Json → String)
    (calls : τ → SystemCall σ) (s : σ) (m : Machine)
    {c : Config τ (σ × Machine) Exchange Outcome Exc Remark Unit}
    (hrun : Config.Reaches SparesClient (.initial (s, m) fun i => (calls i).run text) c) :
    Acc Config.Next c ∧ ((∀ c', ¬ Config.Next c' c) →
      (∀ i, c.result i ≠ none) ∧ c.holder = none) := by
  have hC : Conduct text calls turnDiscipline := conduct_turns
  have hkept := hC.kept (fun _ => trivial) (s := s) (m := m) trivial trivial
  have henabled := hkept.enabled (fun c f henv => henv c.world.state) hrun
  refine ⟨Config.next_wellFounded.apply c, fun hstuck => ?_⟩
  have hended : ∀ i, c.result i ≠ none := by
    intro i hi
    rcases henabled.1 i hi with ⟨j, hj⟩
    rcases Config.Enabled.next hj (replyOf true) with ⟨c', hc'⟩
    exact hstuck c' hc'
  exact ⟨hended, henabled.2 hended⟩

/-- The other is told of a third host while the search asks the second, which answers. -/
def toTheEnd {τ : Type} (first other : τ) : List (Action τ (Unit × Machine) Outcome) :=
  [.start first, .lock first, .start other, .resume first (replyOf true)]

/-- Nothing but calls act in the schedule. -/
theorem toTheEnd_sparesClient
    (c : Config (Fin 2) (Unit × Machine) Exchange Outcome Exc Remark Unit) :
    ∀ a ∈ toTheEnd 0 1, SparesClient c a := by
  simp [toTheEnd, SparesClient]

/-- The two of them, to the end: the start leads nowhere forever, and where the run stands
still both have ended and the lock is free. -/
theorem calls_end_witness :
    ∃ c c' : Config (Fin 2) (Unit × Machine) Exchange Outcome Exc Remark Unit,
      Acc Config.Next c ∧ c.run (toTheEnd 0 1) = some c' ∧ (∀ d, ¬ Config.Next d c') ∧
        (∀ i, c'.result i ≠ none) ∧ c'.holder = none := by
  obtain ⟨c', hrun, hfirst, hother⟩ : ∃ c' : Config (Fin 2) (Unit × Machine) _ _ _ _ _,
      Config.run (.initial ((), ⟨.loggedIn ["192.0.2.1", "192.0.2.2"], 0⟩)
        fun i => (searchAndHear i).run strOnly) (toTheEnd 0 1) = some c' ∧
      c'.result 0 = some (.ok ()) ∧ c'.result 1 = some (.ok ()) :=
    ⟨_, by and_intros <;> with_unfolding_all rfl⟩
  have hstuck : ∀ d, ¬ Config.Next d c' := by
    intro d hnext
    rcases hnext.unended with ⟨i, hi⟩
    revert i
    refine Fin.forall_fin_two.mpr ⟨fun hi => ?_, fun hi => ?_⟩
    · cases hfirst.symm.trans hi
    · cases hother.symm.trans hi
  have hend := calls_end strOnly searchAndHear () _
    (Config.reaches_of_run toTheEnd_sparesClient hrun)
  exact ⟨_, c', (calls_end strOnly searchAndHear () _ (.refl _)).1, hrun, hstuck,
    hend.2 hstuck⟩

end Turns

end AioProxmox
