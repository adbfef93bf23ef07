import AioProxmox.Client.Renewals
import AioProxmox.Coroutine.Moments
import AioProxmox.System.Conversations

/-!
# System - every exchange is made of the moment

A request first looks at the age of its ticket, and may then wait for other hosts, logins and
the lock while other tasks change the client.  What it sends is all the same made of the
client as it is when it is sent: the host in use, the ticket and the options of that moment.
A renewal is posted where the ticket is due, and the request is sent where it is not; only
the repetition after the loss of the host goes out without a look at the clock.

Main results:

- Definition {lit}`Timely`: an exchange that fits the moment in which it is made.
- Theorem {lit}`request_timely`: in every run of any pool each exchange of a request does.
-/

namespace AioProxmox

open Coroutine

/-- Whether the ticket in use is due for renewal. -/
def Machine.due (m : Machine) : Bool :=
  match m.client.auth with
  | .ticket auth => auth.due m.monotonic
  | .token _ => false

/-- What an exchange of a request has to do with the moment in which it is made, after a
conversation: it is made of the client as it is then, a renewal is posted for a ticket that is
due, and the request is sent with one that is not, unless it lost its host before. -/
structure Timely (method path : String) (jsonData params : Option Dict) (m : Machine) (l : Chat)
    (q : Exchange) : Prop where
  sends : q.purpose = .request →
    buildRequest m.client method path jsonData params none = .ok q.request
  fresh : q.purpose = .request → m.due = true → l.Lost path
  probes : ∀ candidate, q.purpose = .probe candidate →
    buildRequest m.client "GET" "version" none none (some probeTimeout) = .ok q.request
  posts : q.purpose.isLogin = true → ∃ auth data timeout, m.client.auth = .ticket auth ∧
    LoginForm auth q.purpose data ∧ q = ticketExchange q.purpose auth timeout data
  renews : q.purpose = .login none → m.due = true

section Freshness

/-! ## The clock -/

/-- A ticket adopted now is not due. -/
theorem due_renewed (m : Machine) :
    (m.mapTicket fun auth => { auth with birthTime := m.monotonic }).due = false := by
  cases hauth : m.client.auth with
  | ticket auth =>
      have hpositive : 0 < renewAge := by decide +kernel
      simpa [Machine.mapTicket, Machine.due, ProxmoxHTTPAuth.due, hauth] using hpositive
  | token auth => simp [Machine.mapTicket, Machine.due, hauth]

/-- Whether it is due depends on nothing else that a login assigns. -/
theorem due_mapTicket (m : Machine) {f : ProxmoxHTTPAuth → ProxmoxHTTPAuth}
    (hf : ∀ auth, (f auth).birthTime = auth.birthTime) : (m.mapTicket f).due = m.due := by
  cases hauth : m.client.auth with
  | ticket auth => simp [Machine.mapTicket, Machine.due, ProxmoxHTTPAuth.due, hauth, hf]
  | token auth => simp [Machine.mapTicket, hauth]

/-- Where a part of a login returns, the ticket in use is not due. -/
def FreshOnReturn (r : Except Exc Unit) (m : Machine) (_ : Chat) : Prop :=
  r = .ok () → m.due = false

/-- An error says nothing of the ticket. -/
theorem freshOnReturn_error (e : Exc) (m : Machine) (l : Chat) :
    FreshOnReturn (.error e) m l :=
  fun h => by contradiction

/-- Logins and probes made of the moment are allowed. -/
structure AllowsMoment (may : Machine → Chat → Exchange → Prop) : Prop where
  posts : ∀ m l auth purpose data timeout, m.client.auth = .ticket auth →
    LoginForm auth purpose data → (purpose = .login none → m.due = true) →
    may m l (ticketExchange purpose auth timeout data)
  probes : ∀ m l candidate request,
    buildRequest m.client "GET" "version" none none (some probeTimeout) = .ok request →
    may m l ⟨.probe candidate, request⟩

variable {may : Machine → Chat → Exchange → Prop} {m : Machine} {l : Chat}

/-! ## Logging in -/

/-- Reading the ticket minds nothing. -/
theorem ticketAuth_minds {Q : Except Exc ProxmoxHTTPAuth → Machine → Chat → Prop}
    (hticket : ∀ auth, m.client.auth = .ticket auth → Q (.ok auth) m l)
    (htoken : ∀ message, Q (.error (.attributeError message)) m l) :
    ticketAuth.Minds may Q m l := by
  simp only [ticketAuth, self, Co.minds_bind, Co.minds_state, Co.minds_pure]
  cases hauth : m.client.auth with
  | ticket auth => exact hticket auth hauth
  | token auth => exact htoken _

/-- Adopting the tokens leaves a ticket that is not due. -/
theorem adoptTokens_minds (data : Json) : (adoptTokens data).Minds may FreshOnReturn m l := by
  simp only [adoptTokens, Co.minds_bind, Co.minds_modify, Co.minds_ofExcept]
  rcases data.getItem "ticket" with e | ticket
  · exact freshOnReturn_error e _ l
  · rcases data.getItem "CSRFPreventionToken" with e | csrf
    · exact freshOnReturn_error e _ l
    · intro _
      rw [due_mapTicket, due_mapTicket]
      · exact due_renewed m
      · exact fun _ => rfl
      · exact fun _ => rfl

/-- Adopting the capabilities leaves the ticket as it is. -/
theorem adoptCapabilities_minds (data : Json) (hfresh : m.due = false) :
    (adoptCapabilities data).Minds may (fun _ m' _ => m'.due = false) m l := by
  unfold adoptCapabilities
  split
  · rename_i cap hcap
    simp only [Co.minds_bind, Co.minds_ofExcept, Co.minds_modify]
    rcases PVECapabilities.ofKwargs cap with e | capabilities
    · exact hfresh
    · simp only
      rw [due_mapTicket]
      · exact hfresh
      · exact fun _ => rfl
  · exact hfresh

/-- A second factor that returns leaves a ticket that is not due. -/
theorem secondFactor_minds (hmay : AllowsMoment may) (otp : Option Bool) (otptype : Option String)
    (timeout : ℚ) : (secondFactor otp otptype timeout).Minds may FreshOnReturn m l := by
  simp only [secondFactor, postTicket, Co.minds_bind, Co.minds_await, Co.minds_ofExcept]
  refine ticketAuth_minds (fun auth hauth => ⟨?_, fun r m' => ?_⟩) fun _ =>
    freshOnReturn_error _ _ _
  · exact hmay.posts m l auth _ _ _ hauth (.secondFactor otp otptype) (by simp)
  · rcases r with e | response
    · exact freshOnReturn_error e m' _
    · simp only
      rcases response.json with e | otpJson
      · exact freshOnReturn_error e m' _
      · simp only
        rcases otpJson.dictGet "data" with e | data
        · exact freshOnReturn_error e m' _
        · simp only
          split_ifs
          · exact adoptTokens_minds data
          · exact freshOnReturn_error _ m' l

/-- An answer that is accepted leaves a ticket that is not due. -/
theorem acceptLogin_minds (hmay : AllowsMoment may) (otp : Option Bool) (otptype : Option String)
    (timeout : ℚ) (response : Response) :
    (acceptLogin otp otptype timeout response).Minds may FreshOnReturn m l := by
  simp only [acceptLogin, Co.minds_bind, Co.minds_ofExcept]
  rcases response.json with e | resJson
  · exact freshOnReturn_error e m l
  · simp only
    rcases resJson.getItem "data" with e | data
    · exact freshOnReturn_error e m l
    · refine (adoptTokens_minds data).mono (fun _ _ _ h => h) fun r m₁ l₁ hr => ?_
      rcases r with e | ⟨⟩
      · exact freshOnReturn_error e m₁ l₁
      · refine (adoptCapabilities_minds data (hr rfl)).mono (fun _ _ _ h => h)
          fun r m₂ l₂ hr₂ => ?_
        rcases r with e | ⟨⟩
        · exact freshOnReturn_error e m₂ l₂
        · simp only
          rcases data.dictGet "NeedTFA" with e | needTfa
          · exact freshOnReturn_error e m₂ l₂
          · simp only
            split_ifs
            · exact secondFactor_minds hmay otp otptype timeout
            · exact fun _ => hr₂

/-- A login, where the form it posts is allowed now. -/
theorem getNewTokens_minds (hmay : AllowsMoment may) (password : Option String)
    (otp : Option Bool) (otptype : Option String)
    (hform : ∀ auth, m.client.auth = .ticket auth →
      LoginForm auth (.login password) (loginData password auth))
    (hdue : password = none → m.due = true) :
    (getNewTokens password otp otptype).Minds may FreshOnReturn m l := by
  simp only [getNewTokens, postTicket, Co.minds_bind, Co.minds_await]
  refine ticketAuth_minds (fun auth hauth => ⟨?_, fun r m' => ?_⟩) fun _ =>
    freshOnReturn_error _ _ _
  · exact hmay.posts m l auth _ _ _ hauth (hform auth hauth) fun h => hdue (by simpa using h)
  · rcases r with e | response
    · exact freshOnReturn_error e m' _
    · simp only
      split_ifs
      · exact acceptLogin_minds hmay otp otptype auth.timeout response
      · simp only [Co.minds_bind]
        exact ticketAuth_minds (fun _ _ => freshOnReturn_error _ m' l) fun _ =>
          freshOnReturn_error _ _ _

/-- {lit}`async_init` leaves a ticket that is not due, if it returns. -/
theorem asyncInit_minds (hmay : AllowsMoment may) : asyncInit.Minds may FreshOnReturn m l := by
  simp only [asyncInit, Co.minds_bind]
  refine ticketAuth_minds (fun auth hauth => ?_) fun _ => freshOnReturn_error _ _ _
  refine getNewTokens_minds hmay _ _ _ (fun auth' hauth' => ?_) (by simp)
  rw [hauth, Auth.ticket.injEq] at hauth'
  subst hauth'
  exact .password

/-- {lit}`relogin` leaves a ticket that is not due, if it returns. -/
theorem relogin_minds (hmay : AllowsMoment may) : relogin.Minds may FreshOnReturn m l := by
  simp only [relogin, Co.minds_bind, Co.minds_remark]
  refine (asyncInit_minds hmay).mono (fun _ _ _ h => h) fun r m' l' hr => ?_
  rcases r with e | ⟨⟩
  · exact freshOnReturn_error e m' l'
  · exact hr

/-- A renewal that returns leaves a ticket that is not due. -/
theorem checkAndRefresh_minds (hmay : AllowsMoment may) :
    checkAndRefresh.Minds may FreshOnReturn m l := by
  simp only [checkAndRefresh, Co.minds_bind, Co.minds_state]
  cases hauth : m.client.auth with
  | token auth =>
      intro _
      rw [Machine.due, hauth]
  | ticket auth =>
      simp only
      split_ifs with hdue
      · have hnow : m.due = true := by rwa [Machine.due, hauth]
        rw [Co.minds_tryCatch]
        refine (getNewTokens_minds hmay none none none (fun _ _ => .renewal) fun _ => hnow).mono
          (fun _ _ _ h => h) fun r m' l' hr => ?_
        rcases r with e | ⟨⟩
        · simp only [refused]
          split
          · exact relogin_minds hmay
          · exact freshOnReturn_error _ m' l'
        · exact hr
      · intro _
        rw [Machine.due, hauth]
        simpa using hdue

/-! ## Searching -/

/-- Reading the host in use changes nothing. -/
theorem currentHost_minds {Q : Except Exc String → Machine → Chat → Prop}
    (hQ : ∀ r, Q r m l) : currentHost.Minds may Q m l :=
  minds_currentHost.mpr (hQ _)

/-- One attempt, with what is sent made of the client as it is. -/
theorem requestOnce_minds {purpose : Purpose} {method path : String}
    {jsonData params : Option Dict} {timeout : Option ℚ}
    {Q : Except Exc Json → Machine → Chat → Prop}
    (hmay : ∀ request, buildRequest m.client method path jsonData params timeout = .ok request →
      may m l ⟨purpose, request⟩)
    (hQ : ∀ r m' l', Q r m' l') :
    (requestOnce purpose method path jsonData params timeout).Minds may Q m l := by
  simp only [requestOnce, self, Co.minds_bind, Co.minds_state, Co.minds_pure, Co.minds_ofExcept,
    Co.minds_await]
  cases hbuild : buildRequest m.client method path jsonData params timeout with
  | error e => exact hQ _ m l
  | ok request =>
      refine ⟨hmay request hbuild, fun r m' => ?_⟩
      rcases r with e | response
      · exact hQ _ m' _
      · exact hQ _ m' _

/-- A probe that ends in silence asks nothing. -/
theorem silent_minds (err : Exc) : (silent err).Minds may (fun _ _ _ => True) m l := by
  unfold silent
  split
  · rw [Co.minds_bind]
    exact currentHost_minds fun r => by cases r <;> trivial
  · split_ifs
    · rw [Co.minds_bind]
      exact currentHost_minds fun r => by cases r <;> trivial
    · trivial

/-- A probe is made of the moment. -/
theorem answers_minds (hmay : AllowsMoment may) (candidate : Bool) :
    (answers candidate).Minds may (fun _ _ _ => True) m l := by
  unfold answers
  rw [Co.minds_tryCatch, Co.minds_bind]
  refine requestOnce_minds (hmay.probes m l candidate) fun r m' l' => ?_
  rcases r with e | v
  · exact silent_minds e
  · trivial

/-- Moving the client asks nothing. -/
theorem useHost_minds (index : Nat) {Q : Except Exc Unit → Machine → Chat → Prop}
    (hQ : ∀ r m', Q r m' l) : (useHost index).Minds may Q m l := by
  simp only [useHost, self, Co.minds_bind, Co.minds_modify, Co.minds_state, Co.minds_pure,
    Co.minds_ofExcept]
  split
  · exact hQ _ _
  · exact hQ _ _

/-- The probes of a walk are made of the moment. -/
theorem walk_minds (hmay : AllowsMoment may) (start : Nat) (offsets : List Nat) :
    (walk start offsets).Minds may (fun _ _ _ => True) m l := by
  induction offsets generalizing m l with
  | nil =>
      rw [walk, Co.minds_bind]
      exact useHost_minds start fun r m' => by cases r <;> trivial
  | cons offset offsets ih =>
      simp only [walk, self, Co.minds_bind, Co.minds_state, Co.minds_pure]
      refine useHost_minds _ fun r m' => ?_
      rcases r with e | ⟨⟩
      · trivial
      · refine (answers_minds hmay true).mono (fun _ _ _ h => h) fun r m₂ l₂ _ => ?_
        rcases r with e | there
        · trivial
        · simp only
          split_ifs
          · simp only [Co.minds_bind, Co.minds_state, Co.minds_pure, Co.minds_ofExcept]
            split
            · exact currentHost_minds fun r => by cases r <;> trivial
            · trivial
          · exact ih

/-- The probes of a search are made of the moment. -/
theorem switchHost_minds (hmay : AllowsMoment may) (fromHost : Option String)
    (verifyCurrent : Bool) :
    (switchHost fromHost verifyCurrent).Minds may (fun _ _ _ => True) m l := by
  have hmoved : ∀ {Q : Except Exc Bool → Machine → Chat → Prop}, (∀ r, Q r m l) →
      (movedFrom fromHost).Minds may Q m l := by
    intro Q hQ
    unfold movedFrom
    split
    · exact hQ _
    · rw [Co.minds_bind]
      exact currentHost_minds fun r => by cases r <;> exact hQ _
  simp only [switchHost, self, Co.minds_bind, Co.minds_state, Co.minds_pure]
  refine hmoved fun r => ?_
  rcases r with e | moved
  · trivial
  · simp only
    split_ifs
    · rw [Co.minds_bind]
      exact currentHost_minds fun r => by cases r <;> trivial
    · have hstill : (stillAnswers verifyCurrent).Minds may (fun _ _ _ => True) m l := by
        unfold stillAnswers
        split_ifs
        · exact answers_minds hmay false
        · trivial
      rw [Co.minds_bind]
      refine hstill.mono (fun _ _ _ h => h) fun r m₂ l₂ _ => ?_
      rcases r with e | stillThere
      · trivial
      · simp only
        split_ifs
        · rw [Co.minds_bind]
          exact currentHost_minds fun r => by cases r <;> trivial
        · simp only [Co.minds_bind, Co.minds_state, Co.minds_pure]
          exact walk_minds hmay _ _

/-- The probes of {lit}`failover` are made of the moment where it is called for peers. -/
theorem failoverIfPeers_minds (hmay : AllowsMoment may) (fromHost : Option String)
    (verifyCurrent : Bool) :
    (failoverIfPeers fromHost verifyCurrent).Minds may (fun _ _ _ => True) m l := by
  simp only [failoverIfPeers, self, Co.minds_bind, Co.minds_state, Co.minds_pure]
  split_ifs
  · trivial
  · simp only [failover, Co.minds_bind, Co.minds_remark, Co.minds_withLock, Co.minds_pure]
    refine fun m' => (switchHost_minds hmay fromHost verifyCurrent).mono (fun _ _ _ h => h)
      fun r m₂ l₂ _ => ?_
    cases r <;> trivial

/-! ## The request -/

variable {method path : String} {jsonData params : Option Dict}

/-- What fits the moment may be asked at the moment. -/
theorem timely_allowsMoment : AllowsMoment (Timely method path jsonData params) where
  posts m l auth purpose data timeout hauth hform hdue := by
    have hlogin : purpose.isLogin = true := hform.isLogin
    refine ⟨fun h => ?_, fun h => ?_, fun candidate h => ?_, fun _ => ?_, hdue⟩
    · rw [show purpose = .request from h] at hlogin
      contradiction
    · rw [show purpose = .request from h] at hlogin
      contradiction
    · rw [show purpose = .probe candidate from h] at hlogin
      contradiction
    · exact ⟨auth, data, timeout, hauth, hform, rfl⟩
  probes m l candidate request hbuild :=
    ⟨fun h => by contradiction, fun h => by contradiction, fun _ _ => hbuild,
      fun h => by contradiction, fun h => by contradiction⟩

/-- The request, sent with a ticket that is not due or after the loss of its host. -/
theorem timely_send {request : HttpRequest}
    (hbuild : buildRequest m.client method path jsonData params none = .ok request)
    (hfresh : m.due = true → l.Lost path) :
    Timely method path jsonData params m l ⟨.request, request⟩ :=
  ⟨fun _ => hbuild, fun _ => hfresh, fun _ h => by contradiction, fun h => by contradiction,
    fun h => by contradiction⟩

/-- Before the request the ticket is renewed where it is due, on another host where its own is
lost. -/
theorem renewalStage_minds (hmay : AllowsMoment may) :
    (tryCatch checkAndRefresh renewElsewhere : Prog Unit).Minds may FreshOnReturn m l := by
  rw [Co.minds_tryCatch]
  refine (checkAndRefresh_minds hmay).mono (fun _ _ _ h => h) fun r m' l' hr => ?_
  rcases r with e | ⟨⟩
  · simp only [renewElsewhere]
    split_ifs
    · rw [Co.minds_bind]
      refine (failoverIfPeers_minds hmay none false).mono (fun _ _ _ h => h) fun r m₂ l₂ _ => ?_
      rcases r with e' | moved
      · exact freshOnReturn_error e' m₂ l₂
      · simp only
        split_ifs
        · exact checkAndRefresh_minds hmay
        · exact freshOnReturn_error e m₂ l₂
    · exact freshOnReturn_error e m' l'
  · exact hr

/-- What follows the loss of the one send, or its refusal. -/
theorem recover_minds {q : Exchange} {outcome : Outcome} {rest : Chat} {err : Exc}
    (hostBefore : String) (hrest : rest.sends = []) (hq : q.purpose = .request)
    (herr : (outcome >>= readResponse path) = .error err) :
    (recover method path jsonData params hostBefore err).Minds
      (Timely method path jsonData params) (fun _ _ _ => True) m ((q, outcome) :: rest) := by
  have hmay : AllowsMoment (Timely method path jsonData params) := timely_allowsMoment
  have hsends : Chat.sends ((q, outcome) :: rest) = [(q, outcome)] := by
    rw [Chat.sends, List.filter_cons_of_pos (by simpa using hq)]
    exact congrArg _ hrest
  unfold recover
  split
  · rename_i status message endpoint
    simp only [self, Co.minds_bind, Co.minds_state, Co.minds_pure]
    split_ifs
    · trivial
    · rw [Co.minds_bind]
      refine (relogin_minds hmay).mono (fun _ _ _ h => h) fun r m' l' hr => ?_
      rcases r with e | ⟨⟩
      · trivial
      · refine requestOnce_minds (fun request hbuild => timely_send hbuild fun hdue => ?_)
          fun _ _ _ => trivial
        rw [hr rfl] at hdue
        contradiction
  · split_ifs with hlost
    · rw [Co.minds_bind]
      have hsearch : MaySearch (fun _ _ => True) ((q, outcome) :: rest) := fun _ _ _ _ => trivial
      refine ((failoverIfPeers_talks (some hostBefore) true hsearch).minds trivial
        (failoverIfPeers_minds hmay (some hostBefore) true)).mono (fun _ _ _ h => h.2)
        fun r m' l' htold => ?_
      rcases r with e | moved
      · trivial
      · simp only
        split_ifs
        · refine requestOnce_minds (fun request hbuild => timely_send hbuild fun _ => ?_)
            fun _ _ _ => trivial
          exact ⟨q, outcome, err, (htold.1.probes.sends_eq fun _ h => h.not_send).trans hsends,
            herr, hlost⟩
        · trivial
    · trivial

/-- The whole request, whatever it finds. -/
theorem request_minds (m : Machine) :
    (request method path jsonData params).Minds (Timely method path jsonData params)
      (fun _ _ _ => True) m [] := by
  have hmay : AllowsMoment (Timely method path jsonData params) := timely_allowsMoment
  have hrenewal : (tryCatch checkAndRefresh renewElsewhere : Prog Unit).Talks (fun _ => True)
      (MayAsk method path jsonData params) [] fun _ l => Chat.sends l = [] :=
    renewalStage_talks mayAsk_mayRenew
  unfold request
  rw [Co.minds_bind]
  refine (hrenewal.minds trivial (renewalStage_minds hmay)).mono (fun _ _ _ h => h.2)
    fun r m₁ l htold => ?_
  rcases htold with ⟨hunsent, hfresh⟩
  rcases r with e | ⟨⟩
  · trivial
  · simp only [Co.minds_bind, Co.minds_tryCatch]
    refine currentHost_minds fun r => ?_
    rcases r with e | hostBefore
    · trivial
    · have honce : (requestOnce .request method path jsonData params none).Talks (fun _ => True)
          (fun _ _ => True) l fun r l' =>
            (∃ q outcome, q.purpose = .request ∧ (outcome >>= readResponse path) = r ∧
              l' = (q, outcome) :: l) ∨ ∃ key, r = .error (.keyError key) :=
        requestOnce_talks (fun _ _ _ => trivial)
          (fun q outcome hq => .inl ⟨q, outcome, hq, rfl, rfl⟩) fun key => .inr ⟨key, rfl⟩
      have hmoment : (requestOnce .request method path jsonData params none).Minds
          (Timely method path jsonData params) (fun _ _ _ => True) m₁ l := by
        refine requestOnce_minds (fun request hbuild => timely_send hbuild fun hdue => ?_)
          fun _ _ _ => trivial
        rw [hfresh rfl] at hdue
        contradiction
      refine (honce.minds trivial hmoment).mono (fun _ _ _ h => h.2) fun r m₂ l₂ htold => ?_
      rcases r with err | v
      · rcases htold.1 with ⟨q, outcome, hq, hread, rfl⟩ | ⟨key, hkey⟩
        · exact recover_minds hostBefore hunsent hq hread
        · cases hkey
          trivial
      · trivial

end Freshness

/-- Whatever the other tasks are and do, and whatever becomes of the state in the meantime,
every exchange that a step of any run makes for a request fits the moment: it is made of the
client as it is when it is sent, a renewal is posted only for a ticket that is due, and the
request goes out with one that is not, unless it lost its host before. -/
theorem request_timely {τ σ : Type} [DecidableEq τ] (method path : String)
    (jsonData params : Option Dict) {i : τ}
    {tasks : τ → Co (σ × Machine) Exchange Outcome Exc Remark Json}
    (hi : tasks i = (request method path jsonData params).beside) (s : σ × Machine)
    {c c' : Config τ (σ × Machine) Exchange Outcome Exc Remark Json}
    (hrun : Config.Reaches (fun _ _ => True) (.initial s tasks) c)
    {a : Action τ (σ × Machine) Outcome} (hstep : c.step a = some c')
    {new : List (Event τ Exchange Outcome Remark)}
    (hnew : c'.world.history = new ++ c.world.history) {q : Exchange}
    (hsent : .sent i q ∈ new) :
    Timely method path jsonData params c'.world.state.2 (conversation i c'.world.history) q := by
  have hminds : ∀ both, (tasks i).Minds
      (fun both l q => Timely method path jsonData params both.2 l q) (fun _ _ _ => True)
      both [] := fun both => by
    rw [hi]
    exact (request_minds both.2).beside
  exact hrun.minds hminds hstep hnew hsent

/-- Two requests find a ticket that is an hour old; the first is sent once it is renewed. -/
theorem request_timely_witness :
    ∃ (c' : Config (Fin 2) (Unit × Machine) Exchange Outcome Exc Remark Json) (q : Exchange),
      q.purpose = .request ∧ .sent 0 q ∈ c'.world.history ∧ c'.world.state.2.monotonic = 3600 ∧
        Timely "GET" "nodes" none none c'.world.state.2 (conversation 0 c'.world.history) q := by
  obtain ⟨c, c', q, login, hrun, hstep, hnew, hpurpose, hclock⟩ :
      ∃ (c c' : Config (Fin 2) (Unit × Machine) Exchange Outcome Exc Remark Json)
        (q login : Exchange),
        Config.run (.initial ((), dueMachine) fun _ : Fin 2 =>
          (request "GET" "nodes" none none).beside) [.start 0, .start 1] = some c ∧
        c.step (.resume 0 loginReply) = some c' ∧
        c'.world.history = [.sent 0 q, .got 0 login loginReply] ++ c.world.history ∧
        q.purpose = .request ∧ c'.world.state.2.monotonic = 3600 :=
    ⟨_, _, _, _, by and_intros <;> with_unfolding_all rfl⟩
  have hsent : .sent 0 q ∈ ([.sent 0 q, .got 0 login loginReply] :
      List (Event (Fin 2) Exchange Outcome Remark)) := List.mem_cons_self
  refine ⟨c', q, hpurpose, ?_, hclock, ?_⟩
  · rw [hnew]
    exact List.mem_append_left _ hsent
  · exact request_timely "GET" "nodes" none none (by rfl) _
      (Config.reaches_of_run (fun _ _ _ => trivial) hrun) hstep hnew hsent

end AioProxmox
