import AioProxmox.Coroutine.Moments
import AioProxmox.System.Conduct

/-!
# System - the conversation of one request

What a single call of {lit}`request` says to the API, whatever other tasks do to the client in
the meantime: they may move it, log it in, change its hosts or its state in any way.  The
caller's request is sent once; a second time after a 401 and a login, or after the loss of the
host and a search; and never after anything else.

Main results:

- Definition {lit}`MayAsk`: what a request may ask after what has been asked and answered.
- Theorem {lit}`request_lasts`: a request that is repeated with nothing asked in between is sent
  to another host than before.
- Theorem {lit}`request_converses`: in every run of any pool a request asks nothing else, and
  ends in the answer to the last exchange it made, or in an error.
-/

namespace AioProxmox

open Coroutine

/-! ## What is said -/

/-- The answered exchanges of a task with their ends, the newest first. -/
abbrev Chat := List (Exchange × Outcome)

namespace Chat

/-- The conversation went on with exchanges of one kind. -/
def Extends (P : Exchange × Outcome → Prop) (l l' : Chat) : Prop :=
  ∃ new, l' = new ++ l ∧ ∀ x ∈ new, P x

theorem Extends.refl (P : Exchange × Outcome → Prop) (l : Chat) : Extends P l l :=
  ⟨[], rfl, by simp⟩

/-- Exchanges of one kind may be followed by more of them. -/
theorem Extends.trans {P : Exchange × Outcome → Prop} {l₁ l₂ l₃ : Chat}
    (h₁ : Extends P l₁ l₂) (h₂ : Extends P l₂ l₃) : Extends P l₁ l₃ := by
  rcases h₁ with ⟨new₁, rfl, hnew₁⟩
  rcases h₂ with ⟨new₂, rfl, hnew₂⟩
  refine ⟨new₂ ++ new₁, (List.append_assoc _ _ _).symm, fun x hx => ?_⟩
  rcases List.mem_append.mp hx with hx | hx
  · exact hnew₂ x hx
  · exact hnew₁ x hx

/-- One exchange of the kind is added. -/
theorem Extends.cons {P : Exchange × Outcome → Prop} {x : Exchange × Outcome} (l : Chat)
    (hx : P x) : Extends P l (x :: l) :=
  ⟨[x], rfl, by simpa using hx⟩

/-- Exchanges of one kind are exchanges of a wider one. -/
theorem Extends.mono {P P' : Exchange × Outcome → Prop} {l l' : Chat} (h : Extends P l l')
    (hP : ∀ x, P x → P' x) : Extends P' l l' := by
  rcases h with ⟨new, rfl, hnew⟩
  exact ⟨new, rfl, fun x hx => hP x (hnew x hx)⟩

/-- The sends of the caller's request. -/
def sends (l : Chat) : Chat :=
  l.filter fun x => x.1.purpose = .request

/-- Exchanges of any other kind are no sends. -/
theorem Extends.sends_eq {P : Exchange × Outcome → Prop} {l l' : Chat} (h : Extends P l l')
    (hP : ∀ x, P x → x.1.purpose ≠ .request) : sends l' = sends l := by
  rcases h with ⟨new, rfl, hnew⟩
  have hnone : new.filter (fun x => x.1.purpose = .request) = [] := by
    rw [List.filter_eq_nil_iff]
    intro x hx
    simpa using hP x (hnew x hx)
  rw [sends, List.filter_append, hnone, List.nil_append]
  rfl

/-- A post of a login. -/
def IsLogin (x : Exchange × Outcome) : Prop :=
  x.1.purpose.isLogin = true

/-- A {lit}`version` probe. -/
def IsProbe (x : Exchange × Outcome) : Prop :=
  x.1.purpose.isProbe = true

theorem IsLogin.not_send {x : Exchange × Outcome} (h : IsLogin x) :
    x.1.purpose ≠ .request := by
  intro heq
  rw [IsLogin, heq] at h
  contradiction

theorem IsProbe.not_send {x : Exchange × Outcome} (h : IsProbe x) :
    x.1.purpose ≠ .request := by
  intro heq
  rw [IsProbe, heq] at h
  contradiction

/-- The connection was lost before the answer was read. -/
def Broke (outcome : Outcome) : Prop :=
  ∃ e : Exc, e.isLostHost = true ∧
    (outcome = .error e ∨ ∃ response, outcome = .ok response ∧ response.json = .error e)

/-- A post of a login lost its host. -/
def LoginLost (l : Chat) : Prop :=
  ∃ x ∈ l, IsLogin x ∧ Broke x.2

/-- The last exchange was a post of a login that was answered. -/
def LoggedIn (l : Chat) : Prop :=
  ∃ q response rest, l = (q, .ok response) :: rest ∧ q.purpose.isLogin = true

/-- The last exchange was the probe of a candidate that answered. -/
def Found (l : Chat) : Prop :=
  ∃ q outcome rest, l = (q, outcome) :: rest ∧ q.purpose = .probe true ∧
    verdictOf outcome = .ok true

/-- The request was sent once, and ended in a 401. -/
def Refused (path : String) (l : Chat) : Prop :=
  ∃ q outcome message endpoint, sends l = [(q, outcome)] ∧
    (outcome >>= readResponse path) = .error (.proxmoxAPIError 401 message endpoint)

/-- The request was sent once, and lost its host. -/
def Lost (path : String) (l : Chat) : Prop :=
  ∃ q outcome e, sends l = [(q, outcome)] ∧ (outcome >>= readResponse path) = .error e ∧
    e.isLostHost = true

end Chat

/-- What a request may ask next: first logins, where one of them lost its host probes, and the
request; after a 401 logins, and the request once one was answered; after the loss of the
host probes, and the request where a candidate answered or another task has moved the
client. -/
inductive MayAsk (method path : String) (jsonData params : Option Dict) (l : Chat)
    (q : Exchange) : Prop
  | renews (hnone : l.sends = []) (hq : q.purpose.isLogin = true)
  | searchesFirst (hnone : l.sends = []) (hlost : l.LoginLost) (hq : q.purpose.isProbe = true)
  | asks (hnone : l.sends = []) (hq : q.purpose = .request)
      (hcarries : Carries method path jsonData params q)
  | logsIn (h : l.Refused path) (hq : q.purpose.isLogin = true)
  | asksAgain (h : l.Refused path) (hlogin : l.LoggedIn) (hq : q.purpose = .request)
      (hcarries : Carries method path jsonData params q)
  | searches (h : l.Lost path) (hq : q.purpose.isProbe = true)
  | asksElsewhere (h : l.Lost path) (hfound : l.Found ∨ ∃ x, l.head? = some x ∧ x ∈ l.sends)
      (hq : q.purpose = .request) (hcarries : Carries method path jsonData params q)

/-- How a request ends: in an error before it was sent, in the end of the last exchange, or in
an error of the recovery from its one send. -/
inductive RequestEnds (path : String) (r : Except Exc Json) (l : Chat) : Prop
  | unsent {e : Exc} (hnone : l.sends = []) (hr : r = .error e)
  | answered {q : Exchange} {outcome : Outcome} {rest : Chat} (hl : l = (q, outcome) :: rest)
      (hq : q.purpose = .request) (hr : r = (outcome >>= readResponse path))
  | unrecovered {e : Exc} (h : l.Refused path ∨ l.Lost path) (hr : r = .error e)

section Request

variable {S : Machine → Prop} {may : Chat → Exchange → Prop} {l : Chat}

/-! ## Logging in -/

/-- What a login says, and how it ends. -/
structure LoginSays (l : Chat) (r : Except Exc Unit) (l' : Chat) : Prop where
  logins : Chat.Extends Chat.IsLogin l l'
  answered : r = .ok () → l'.LoggedIn
  lost : ∀ e, r = .error e → e.isLostHost = true → l'.LoginLost

/-- A login may be posted after logins. -/
def MayLogIn (may : Chat → Exchange → Prop) (l : Chat) : Prop :=
  ∀ l' q, Chat.Extends Chat.IsLogin l l' → q.purpose.isLogin = true → may l' q

/-- Whoever may log in may go on doing so. -/
theorem MayLogIn.extends {l' : Chat} (h : MayLogIn may l)
    (hl : Chat.Extends Chat.IsLogin l l') : MayLogIn may l' :=
  fun l'' q hl' hq => h l'' q (hl.trans hl') hq

/-- A part that raises does not tell of a lost host. -/
def KeepsHost {α : Type} (r : Except Exc α) : Prop :=
  ∀ e, r = .error e → e.isLostHost = false

/-- A value tells of no lost host. -/
theorem keepsHost_ok {α : Type} (a : α) : KeepsHost (.ok a : Except Exc α) :=
  fun _ he => by contradiction

/-- An error that is none of a lost host tells of none. -/
theorem keepsHost_error {α : Type} {e : Exc} (h : e.isLostHost = false) :
    KeepsHost (.error e : Except Exc α) := by
  intro e' he
  cases he
  exact h

/-- An error is the same whatever its task would have returned. -/
theorem KeepsHost.error {α β : Type} {e : Exc} (h : KeepsHost (.error e : Except Exc α)) :
    KeepsHost (.error e : Except Exc β) :=
  keepsHost_error (h e rfl)

/-- A lookup error tells of no lost host. -/
theorem keepsHost_of_lookup {α : Type} {r : Except Exc α}
    (h : ∀ e, r = .error e → e.isLookup = true) : KeepsHost r :=
  fun e he => Exc.isLookup_isLostHost (h e he)

/-- Reading the ticket says nothing and loses no host. -/
theorem ticketAuth_mute : ticketAuth.Mute S KeepsHost := by
  refine Co.Mute.state_bind fun m _ => ?_
  cases hauth : m.client.auth with
  | ticket auth =>
      simp only [hauth]
      exact .pure (keepsHost_ok auth)
  | token auth =>
      simp only [hauth]
      exact .throw (keepsHost_error rfl)

/-- Adopting an answer does not matter to {lit}`S`: it keeps the timeouts. -/
def KeptByLogins (S : Machine → Prop) : Prop :=
  ∀ m f, (∀ auth : ProxmoxHTTPAuth, (f auth).timeout = auth.timeout) → S m → S (m.mapTicket f)

/-- Adopting tokens says nothing and loses no host. -/
theorem adoptTokens_mute (hS : KeptByLogins S) (data : Json) :
    (adoptTokens data).Mute S KeepsHost := by
  have hitem : ∀ key, (Co.ofExcept (data.getItem key) : Prog Json).Mute S KeepsHost :=
    fun key => .ofExcept (keepsHost_of_lookup fun _ he => Json.getItem_raises he)
  have hadopt : ∀ f : Machine → ProxmoxHTTPAuth → ProxmoxHTTPAuth,
      (∀ m auth, (f m auth).timeout = auth.timeout) →
        (Co.modify fun m => m.mapTicket (f m) : Prog Unit).Mute S KeepsHost :=
    fun f hf => .modify (fun m hm => hS m (f m) (hf m) hm) (keepsHost_ok ())
  refine (hadopt (fun m auth => { auth with birthTime := m.monotonic }) fun _ _ => rfl).bind
    (fun _ _ => ?_) fun _ h => h
  refine (hitem _).bind (fun ticket _ => ?_) fun _ h => h.error
  refine (hadopt (fun _ auth => { auth with pveAuthTicket := ticket }) fun _ _ => rfl).bind
    (fun _ _ => ?_) fun _ h => h
  exact (hitem _).bind (fun csrf _ =>
    hadopt (fun _ auth => { auth with csrfPreventionToken := csrf }) fun _ _ => rfl)
    fun _ h => h.error

/-- Adopting capabilities says nothing and loses no host. -/
theorem adoptCapabilities_mute (hS : KeptByLogins S) (data : Json) :
    (adoptCapabilities data).Mute S KeepsHost := by
  unfold adoptCapabilities
  split
  · rename_i cap hcap
    have hread : (Co.ofExcept (PVECapabilities.ofKwargs cap) : Prog PVECapabilities).Mute
        S KeepsHost :=
      .ofExcept (keepsHost_of_lookup fun _ he => PVECapabilities.ofKwargs_raises he)
    refine hread.bind (fun capabilities _ => ?_) fun _ h => h.error
    exact .modify (fun m hm => hS m _ (fun _ => rfl) hm) (keepsHost_ok ())
  · exact .pure (keepsHost_ok ())

variable {l₀ : Chat}

/-- A part that loses no host. -/
theorem LoginSays.ofKeeps {r : Except Exc Unit} (hl : Chat.Extends Chat.IsLogin l₀ l)
    (hlogged : l.LoggedIn) (hr : KeepsHost r) : LoginSays l₀ r l where
  logins := hl
  answered _ := hlogged
  lost e he hlost := by
    rw [hr e he] at hlost
    contradiction

/-- The part of a login that comes after a post. -/
theorem postTicket_talks {purpose : Purpose} {auth : ProxmoxHTTPAuth} {timeout : ℚ} {data : Dict}
    {f : Response → Prog Unit} (hpurpose : purpose.isLogin = true) (hmay : MayLogIn may l₀)
    (hl : Chat.Extends Chat.IsLogin l₀ l)
    (hf : ∀ l' response, Chat.Extends Chat.IsLogin l₀ l' →
      l' = (ticketExchange purpose auth timeout data, .ok response) :: l →
      (f response).Talks S may l' (LoginSays l₀)) :
    (postTicket purpose auth timeout data >>= f).Talks S may l (LoginSays l₀) := by
  have hextends : ∀ outcome, Chat.Extends Chat.IsLogin l₀
      ((ticketExchange purpose auth timeout data, outcome) :: l) :=
    fun outcome => hl.trans (.cons l hpurpose)
  refine Co.Talks.bind (R := fun r l' => l' = (ticketExchange purpose auth timeout data, r) :: l)
    (Co.Talks.await (hmay l _ hl hpurpose) fun r => rfl) (fun response l' hl' => ?_)
    fun e l' hl' => ?_
  · exact hf l' response (hl' ▸ hextends _) hl'
  · rw [hl']
    refine ⟨hextends _, by simp, fun e' he hlost => ?_⟩
    cases he
    exact ⟨_, List.mem_cons_self, hpurpose, e, hlost, .inl rfl⟩

/-- Reading the body of an answer to a post. -/
theorem readLogin_talks {q : Exchange} {response : Response} {rest : Chat}
    {f : Json → Prog Unit} (hl : Chat.Extends Chat.IsLogin l₀ l) (hq : q.purpose.isLogin = true)
    (hlast : l = (q, .ok response) :: rest)
    (hf : ∀ body, (f body).Talks S may l (LoginSays l₀)) :
    (Co.ofExcept response.json >>= f).Talks S may l (LoginSays l₀) := by
  refine Co.Talks.ofExcept_bind (fun body _ => hf body) fun e he => ?_
  refine ⟨hl, by simp, fun e' he' hlost => ?_⟩
  cases he'
  refine ⟨(q, .ok response), by simp [hlast], hq, e, hlost, .inr ⟨response, rfl, he⟩⟩

/-- The secondary step of a login. -/
theorem secondFactor_talks (otp : Option Bool) (otptype : Option String) (timeout : ℚ)
    (hmay : MayLogIn may l₀) (hl : Chat.Extends Chat.IsLogin l₀ l) (hlogged : l.LoggedIn) :
    (secondFactor otp otptype timeout).Talks (fun _ => True) may l (LoginSays l₀) := by
  refine ticketAuth_mute.talks_bind (fun auth _ => ?_) fun e h => .ofKeeps hl hlogged h.error
  refine postTicket_talks rfl hmay hl fun l' response hl' hlast => ?_
  have hlogged' : l'.LoggedIn := ⟨_, response, l, hlast, rfl⟩
  refine readLogin_talks hl' rfl hlast fun otpJson => ?_
  refine Co.Talks.ofExcept_bind (fun data _ => ?_) fun e he =>
    .ofKeeps hl' hlogged' (keepsHost_error (Exc.isLookup_isLostHost (Json.dictGet_raises he)))
  split_ifs
  · exact (adoptTokens_mute (fun _ _ _ _ => trivial) data).talks fun r hr =>
      .ofKeeps hl' hlogged' hr
  · exact Co.Talks.throw (.ofKeeps hl' hlogged' (keepsHost_error rfl))

/-- What a login does with an accepted first answer. -/
theorem acceptLogin_talks (otp : Option Bool) (otptype : Option String) (timeout : ℚ)
    {q : Exchange} {response : Response} {rest : Chat} (hmay : MayLogIn may l₀)
    (hl : Chat.Extends Chat.IsLogin l₀ l) (hq : q.purpose.isLogin = true)
    (hlast : l = (q, .ok response) :: rest) :
    (acceptLogin otp otptype timeout response).Talks (fun _ => True) may l (LoginSays l₀) := by
  have hlogged : l.LoggedIn := ⟨q, response, rest, hlast, hq⟩
  refine readLogin_talks hl hq hlast fun resJson => ?_
  refine Co.Talks.ofExcept_bind (fun data _ => ?_) fun e he =>
    .ofKeeps hl hlogged (keepsHost_error (Exc.isLookup_isLostHost (Json.getItem_raises he)))
  refine (adoptTokens_mute (fun _ _ _ _ => trivial) data).talks_bind (fun _ _ => ?_) fun e h =>
    .ofKeeps hl hlogged h
  refine (adoptCapabilities_mute (fun _ _ _ _ => trivial) data).talks_bind (fun _ _ => ?_)
    fun e h => .ofKeeps hl hlogged h
  refine Co.Talks.ofExcept_bind (fun needTfa _ => ?_) fun e he =>
    .ofKeeps hl hlogged (keepsHost_error (Exc.isLookup_isLostHost (Json.dictGet_raises he)))
  split_ifs
  · exact secondFactor_talks otp otptype timeout hmay hl hlogged
  · exact Co.Talks.pure (.ofKeeps hl hlogged (keepsHost_ok ()))

/-- What a login with a password says is posts of logins. -/
theorem getNewTokens_talks (password : Option String) (otp : Option Bool)
    (otptype : Option String) (hmay : MayLogIn may l₀) (hl : Chat.Extends Chat.IsLogin l₀ l) :
    (getNewTokens password otp otptype).Talks (fun _ => True) may l (LoginSays l₀) := by
  refine ticketAuth_mute.talks_bind (fun auth _ => ?_) fun e h =>
    ⟨hl, by simp, fun e' he hlost => ?_⟩
  · refine postTicket_talks rfl hmay hl fun l' response hl' hlast => ?_
    split_ifs
    · exact acceptLogin_talks otp otptype auth.timeout hmay hl' rfl hlast
    · have hlogged : l'.LoggedIn := ⟨_, response, l, hlast, rfl⟩
      refine ticketAuth_mute.talks_bind (fun now _ => ?_) fun e h => .ofKeeps hl' hlogged h.error
      exact Co.Talks.throw (.ofKeeps hl' hlogged (keepsHost_error rfl))
  · cases he
    rw [h e rfl] at hlost
    contradiction

/-- What {lit}`async_init` says is posts of logins. -/
theorem asyncInit_talks (hmay : MayLogIn may l₀) (hl : Chat.Extends Chat.IsLogin l₀ l) :
    asyncInit.Talks (fun _ => True) may l (LoginSays l₀) := by
  refine ticketAuth_mute.talks_bind (fun auth _ => getNewTokens_talks _ _ _ hmay hl) fun e h =>
    ⟨hl, by simp, fun e' he hlost => ?_⟩
  cases he
  rw [h e rfl] at hlost
  contradiction

/-- What {lit}`relogin` says is posts of logins. -/
theorem relogin_talks (hmay : MayLogIn may l₀) (hl : Chat.Extends Chat.IsLogin l₀ l) :
    relogin.Talks (fun _ => True) may l (LoginSays l₀) := by
  refine Co.Talks.remark_bind ((asyncInit_talks hmay hl).bind (fun _ l' htold => ?_) fun _ _ h => h)
  exact Co.Talks.remark htold

/-- What a renewal says, and how it ends. -/
structure RenewalSays (l : Chat) (r : Except Exc Unit) (l' : Chat) : Prop where
  logins : Chat.Extends Chat.IsLogin l l'
  lost : ∀ e, r = .error e → e.isLostHost = true → l'.LoginLost

/-- What a login says a renewal may say. -/
theorem LoginSays.renewal {r : Except Exc Unit} {l' : Chat} (h : LoginSays l r l') :
    RenewalSays l r l' :=
  ⟨h.logins, h.lost⟩

/-- What a renewal says is posts of logins, if anything. -/
theorem checkAndRefresh_talks (hmay : MayLogIn may l₀) (hl : Chat.Extends Chat.IsLogin l₀ l) :
    checkAndRefresh.Talks (fun _ => True) may l (RenewalSays l₀) := by
  refine Co.Talks.state_bind fun m _ => ?_
  cases hauth : m.client.auth with
  | token auth =>
      dsimp only
      exact Co.Talks.pure ⟨hl, by simp⟩
  | ticket auth =>
      dsimp only
      split_ifs
      · refine (getNewTokens_talks none none none hmay hl).tryCatch
          (fun _ _ h => h.renewal) fun e l' htold => ?_
        unfold refused
        split
        · exact (relogin_talks hmay htold.logins).mono (fun _ _ h => h) fun _ _ h => h.renewal
        · exact Co.Talks.throw htold.renewal
      · exact Co.Talks.pure ⟨hl, by simp⟩

/-! ## Searching -/

/-- What a search says: probes, and where it moved the client the last of them found a host,
unless somebody else had moved it. -/
structure SearchSays (l : Chat) (r : Except Exc Bool) (l' : Chat) : Prop where
  probes : Chat.Extends Chat.IsProbe l l'
  found : r = .ok true → l'.Found ∨ l' = l

/-- A probe may be sent after probes. -/
def MaySearch (may : Chat → Exchange → Prop) (l : Chat) : Prop :=
  ∀ l' q, Chat.Extends Chat.IsProbe l l' → q.purpose.isProbe = true → may l' q

/-- Naming the host in use says nothing. -/
theorem currentHost_mute : currentHost.Mute S fun _ => True :=
  Co.Mute.state_bind fun _ _ => .ofExcept trivial

/-- Which host is in use does not matter to {lit}`S`. -/
structure KeptByMoves (S : Machine → Prop) : Prop where
  index : ∀ (m : Machine) index, S m → S { m with client.hostIndex := index }
  host : ∀ (m : Machine) host, S m → S { m with client := m.client.pointAt host }

/-- Moving the client says nothing. -/
theorem useHost_mute (hS : KeptByMoves S) (index : Nat) :
    (useHost index).Mute S fun _ => True := by
  refine Co.Mute.bind (R := fun _ => True) (.modify (fun m hm => hS.index m index hm) trivial)
    (fun _ _ => ?_) fun _ _ => trivial
  refine Co.Mute.state_bind fun m _ => ?_
  exact Co.Mute.bind (.ofExcept (R := fun _ => True) trivial)
    (fun host _ => .modify (fun m hm => hS.host m host hm) trivial) fun _ _ => trivial

/-- A request that is built carries the caller's arguments. -/
theorem carries_of_buildRequest {client : ProxmoxVE} {method path : String}
    {jsonData params : Option Dict} {timeout : Option ℚ} {request : HttpRequest}
    (purpose : Purpose)
    (h : buildRequest client method path jsonData params timeout = .ok request) :
    Carries method path jsonData params ⟨purpose, request⟩ := by
  have hheaders : client.auth.headersError = none := by
    unfold buildRequest at h
    unfold Auth.headersError
    rcases hread : client.auth.getHeaders with e | headers
    · rw [hread] at h
      contradiction
    · rfl
  rcases buildRequest_carries purpose method path jsonData params timeout hheaders with
    ⟨request', hrequest', hcarries⟩
  rw [h, Except.ok.injEq] at hrequest'
  rwa [hrequest']

/-- One attempt. -/
theorem requestOnce_talks {purpose : Purpose} {method path : String}
    {jsonData params : Option Dict} {timeout : Option ℚ} {Q : Except Exc Json → Chat → Prop}
    (hmay : ∀ q, q.purpose = purpose → Carries method path jsonData params q → may l q)
    (hanswered : ∀ q outcome, q.purpose = purpose →
      Q (outcome >>= readResponse path) ((q, outcome) :: l))
    (hunsent : ∀ key, Q (.error (.keyError key)) l) :
    (requestOnce purpose method path jsonData params timeout).Talks S may l Q := by
  refine Co.Talks.state_bind fun m _ => ?_
  refine Co.Talks.ofExcept_bind (fun request hrequest => ?_) fun e he => ?_
  swap
  · rcases Conduct.buildRequest_raises he with ⟨key, rfl⟩
    exact hunsent key
  refine Co.Talks.bind (R := fun r l' => l' = (⟨purpose, request⟩, r) :: l)
    (Co.Talks.await (hmay _ rfl (carries_of_buildRequest purpose hrequest)) fun r => rfl)
    (fun response l' hl' => ?_) fun e l' hl' => ?_
  · rw [hl']
    exact Co.Talks.ofExcept (hanswered ⟨purpose, request⟩ (.ok response) rfl)
  · rw [hl']
    exact hanswered ⟨purpose, request⟩ (.error e) rfl

/-- What becomes of the exception that a probe ends in. -/
theorem silent_mute (err : Exc) :
    (silent err).Mute S fun r => r = .ok true → err.isProxmoxAPIError = true := by
  unfold silent
  split
  · exact currentHost_mute.bind (fun _ _ => .pure fun _ => rfl) fun _ _ h => by contradiction
  · split_ifs
    · exact currentHost_mute.bind (fun _ _ => .pure fun h => by simp at h)
        fun _ _ h => by contradiction
    · exact .throw fun h => by contradiction

/-- A probe adds itself, and answers as its verdict says. -/
theorem answers_talks (candidate : Bool) {Q : Except Exc Bool → Chat → Prop}
    (hmay : ∀ q, q.purpose = .probe candidate → may l q)
    (hanswered : ∀ q outcome r, q.purpose = .probe candidate →
      (r = .ok true → verdictOf outcome = .ok true) → Q r ((q, outcome) :: l))
    (hunsent : ∀ e, Q (.error e) l) : (answers candidate).Talks S may l Q := by
  have honce : (requestOnce (.probe candidate) "GET" "version" none none (some probeTimeout)).Talks
      S may l fun r l' => (∃ q outcome, q.purpose = .probe candidate ∧
        (outcome >>= readResponse "version") = r ∧ l' = (q, outcome) :: l) ∨
        ∃ key, r = .error (.keyError key) ∧ l' = l :=
    requestOnce_talks (fun q hq _ => hmay q hq)
      (fun q outcome hq => .inl ⟨q, outcome, hq, rfl, rfl⟩) fun key => .inr ⟨key, rfl, rfl⟩
  refine (honce.bind (f := fun _ => (pure true : Prog Bool))
    (Q := fun r l' => (∃ q outcome, q.purpose = .probe candidate ∧
        (r.map fun _ => ()) = ((outcome >>= readResponse "version").map fun _ => ()) ∧
        l' = (q, outcome) :: l) ∨ ∃ key, r = .error (.keyError key) ∧ l' = l)
    (fun v l' hv => ?_) fun e l' he => ?_).tryCatch (fun b l' hb => ?_) fun e l' he => ?_
  · rcases hv with ⟨q, outcome, hq, hread, hl'⟩ | ⟨key, hkey, -⟩
    · exact Co.Talks.pure (.inl ⟨q, outcome, hq, by rw [hread]; rfl, hl'⟩)
    · contradiction
  · rcases he with ⟨q, outcome, hq, hread, hl'⟩ | ⟨key, hkey, hl'⟩
    · exact .inl ⟨q, outcome, hq, by rw [hread]; rfl, hl'⟩
    · cases hkey
      exact .inr ⟨key, rfl, hl'⟩
  · rcases hb with ⟨q, outcome, hq, hread, rfl⟩ | ⟨key, hkey, -⟩
    · refine hanswered q outcome _ hq fun _ => ?_
      unfold verdictOf
      cases hvalue : outcome >>= readResponse "version" with
      | ok v => rfl
      | error e =>
          rw [hvalue] at hread
          contradiction
    · contradiction
  · rcases he with ⟨q, outcome, hq, hread, rfl⟩ | ⟨key, hkey, rfl⟩
    · refine (silent_mute e).talks fun r hr => hanswered q outcome r hq fun h => ?_
      unfold verdictOf
      cases hvalue : outcome >>= readResponse "version" with
      | ok v => rfl
      | error e' =>
          rw [hvalue] at hread
          cases hread
          simp [hr h]
    · cases hkey
      exact Co.Talks.throw (hunsent _)

/-- What the walk over the candidates says: probes, and where it returns true the last of them
found a host. -/
structure WalkSays (l : Chat) (r : Except Exc Bool) (l' : Chat) : Prop where
  probes : Chat.Extends Chat.IsProbe l l'
  found : r = .ok true → l'.Found

/-- The loop over the candidates. -/
theorem walk_talks {l₀ : Chat} (start : Nat) (offsets : List Nat) (hmay : MaySearch may l₀)
    (hl : Chat.Extends Chat.IsProbe l₀ l) :
    (walk start offsets).Talks (fun _ => True) may l (WalkSays l₀) := by
  have hmoves : KeptByMoves fun _ => True := ⟨fun _ _ _ => trivial, fun _ _ _ => trivial⟩
  induction offsets generalizing l with
  | nil =>
      refine (useHost_mute hmoves start).talks_bind (fun _ _ => ?_) fun e _ => ⟨hl, by simp⟩
      exact Co.Talks.pure ⟨hl, by simp⟩
  | cons offset offsets ih =>
      refine Co.Talks.state_bind fun m _ => ?_
      refine (useHost_mute hmoves _).talks_bind (fun _ _ => ?_) fun e _ => ⟨hl, by simp⟩
      refine Co.Talks.bind (R := fun r l' => Chat.Extends Chat.IsProbe l₀ l' ∧
          (r = .ok true → Chat.Found l'))
        (answers_talks true (fun q hq => hmay l q hl (by rw [hq]; rfl)) ?_ ?_) ?_ ?_
      · intro q outcome r hq hr
        exact ⟨hl.trans (.cons l (by rw [Chat.IsProbe, hq]; rfl)),
          fun h => ⟨q, outcome, l, rfl, hq, hr h⟩⟩
      · exact fun e => ⟨hl, by simp⟩
      · rintro there l' ⟨hl', hfound⟩
        split_ifs with hthere
        · refine Co.Talks.state_bind fun m' _ => ?_
          refine Co.Talks.ofExcept_bind (fun _ _ => ?_) fun e _ => ⟨hl', by simp⟩
          refine currentHost_mute.talks_bind (fun _ _ => ?_) fun e _ => ⟨hl', by simp⟩
          exact Co.Talks.pure ⟨hl', fun _ => hfound (by rw [hthere])⟩
        · exact ih hl'
      · exact fun e l' h => ⟨h.1, by simp⟩

/-- To see whether the client has moved says nothing. -/
theorem movedFrom_mute (fromHost : Option String) :
    (movedFrom fromHost).Mute S fun _ => True := by
  unfold movedFrom
  split
  · exact .pure trivial
  · exact currentHost_mute.bind (fun _ _ => .pure trivial) fun _ _ => trivial

/-- What a search does where nobody else has moved the client. -/
def searchHost (start : Nat) (verifyCurrent : Bool) : Prog Bool := do
  let stillThere ← stillAnswers verifyCurrent
  if stillThere then do
    let _ ← currentHost
    return false
  else do
    let client ← self
    walk start (List.range' 1 (client.hosts.length - 1))

/-- A walk from a host says probes. -/
theorem searchHost_talks (start : Nat) (verifyCurrent : Bool) (hmay : MaySearch may l) :
    (searchHost start verifyCurrent).Talks (fun _ => True) may l (WalkSays l) := by
  have hrefl := Chat.Extends.refl Chat.IsProbe l
  have hstill : (stillAnswers verifyCurrent).Talks (fun _ => True) may l
      fun _ l' => Chat.Extends Chat.IsProbe l l' := by
    unfold stillAnswers
    split_ifs
    · refine answers_talks false (fun q hq => hmay l q hrefl (by rw [hq]; rfl)) ?_ fun _ => hrefl
      exact fun q outcome r hq _ => .cons l (by rw [Chat.IsProbe, hq]; rfl)
    · exact Co.Talks.pure hrefl
  refine hstill.bind (fun stillThere l' hl' => ?_) fun e l' hl' => ⟨hl', by simp⟩
  split_ifs
  · exact currentHost_mute.talks_bind (fun _ _ => Co.Talks.pure ⟨hl', by simp⟩)
      fun e _ => ⟨hl', by simp⟩
  · exact Co.Talks.state_bind fun m' _ => walk_talks _ _ hmay hl'

/-- What a search says is probes. -/
theorem switchHost_talks (fromHost : Option String) (verifyCurrent : Bool)
    (hmay : MaySearch may l) :
    (switchHost fromHost verifyCurrent).Talks (fun _ => True) may l (SearchSays l) := by
  have hrefl := Chat.Extends.refl Chat.IsProbe l
  refine Co.Talks.state_bind fun m _ => ?_
  refine (movedFrom_mute fromHost).talks_bind (fun moved _ => ?_) fun e _ => ⟨hrefl, by simp⟩
  split_ifs
  · exact currentHost_mute.talks_bind (fun _ _ => Co.Talks.pure ⟨hrefl, fun _ => .inr rfl⟩)
      fun e _ => ⟨hrefl, by simp⟩
  · exact (searchHost_talks _ verifyCurrent hmay).mono (fun _ _ h => h) fun r l' h =>
      ⟨h.probes, fun hr => .inl (h.found hr)⟩

/-- What {lit}`failover` says is probes. -/
theorem failover_talks (fromHost : Option String) (verifyCurrent : Bool)
    (hmay : MaySearch may l) :
    (failover fromHost verifyCurrent).Talks (fun _ => True) may l (SearchSays l) := by
  refine Co.Talks.remark_bind ?_
  refine (switchHost_talks fromHost verifyCurrent hmay).withLock.bind
    (fun verdict l' htold => ?_) fun _ _ h => h
  exact Co.Talks.remark_bind (Co.Talks.pure htold)

/-- What {lit}`failover` says where there are peers is probes. -/
theorem failoverIfPeers_talks (fromHost : Option String) (verifyCurrent : Bool)
    (hmay : MaySearch may l) :
    (failoverIfPeers fromHost verifyCurrent).Talks (fun _ => True) may l (SearchSays l) := by
  refine Co.Talks.state_bind fun m _ => ?_
  dsimp only
  split_ifs
  · exact Co.Talks.pure ⟨.refl _ l, by simp⟩
  · exact failover_talks fromHost verifyCurrent hmay

/-! ## The request -/

variable {method path : String} {jsonData params : Option Dict}

/-- Before the request is sent it may be renewed for: by logins, and by probes once a login has
lost its host. -/
structure MayRenew (may : Chat → Exchange → Prop) : Prop where
  logins : ∀ l q, Chat.sends l = [] → q.purpose.isLogin = true → may l q
  probes : ∀ l q, Chat.sends l = [] → l.LoginLost → q.purpose.isProbe = true → may l q

/-- A request may begin with a renewal. -/
theorem mayAsk_mayRenew : MayRenew (MayAsk method path jsonData params) :=
  ⟨fun _ _ => .renews, fun _ _ => .searchesFirst⟩

/-- A renewal may log in while nothing was sent. -/
theorem MayRenew.mayLogIn (h : MayRenew may) (hnone : l.sends = []) : MayLogIn may l :=
  fun _ _ hl' hq => h.logins _ _ (hl'.sends_eq (fun _ h => h.not_send) ▸ hnone) hq

/-- The renewal before the request, on another host where its own is lost. -/
theorem renewalStage_talks (hmay : MayRenew may) :
    (tryCatch checkAndRefresh renewElsewhere).Talks (fun _ => True) may []
      fun _ l' => Chat.sends l' = [] := by
  have hunsent : ∀ {l' : Chat}, Chat.Extends Chat.IsLogin [] l' → l'.sends = [] :=
    fun hl' => hl'.sends_eq fun _ h => h.not_send
  refine (checkAndRefresh_talks (hmay.mayLogIn rfl) (.refl _ _)).tryCatch
    (fun _ _ htold => hunsent htold.logins) fun e l' htold => ?_
  have hl' := hunsent htold.logins
  unfold renewElsewhere
  split_ifs with hlost
  · have hsearches : MaySearch may l' := by
      intro l'' q hl'' hq
      have hsame := hl''.sends_eq fun _ h => h.not_send
      refine hmay.probes _ _ (hsame.trans hl') ?_ hq
      rcases htold.lost e rfl hlost with ⟨x, hx, hrest⟩
      rcases hl'' with ⟨new, rfl, -⟩
      exact ⟨x, List.mem_append_right new hx, hrest⟩
    refine (failoverIfPeers_talks none false hsearches).bind (fun moved l'' hsearch => ?_)
      fun e' l'' hsearch => ?_
    · have hl'' := (hsearch.probes.sends_eq fun _ h => h.not_send).trans hl'
      split_ifs
      · refine (checkAndRefresh_talks (hmay.mayLogIn hl'') (.refl _ _)).mono
          (fun _ _ h => h) fun r l₃ htold' => ?_
        exact (htold'.logins.sends_eq fun _ h => h.not_send).trans hl''
      · exact Co.Talks.throw hl''
    · exact (hsearch.probes.sends_eq fun _ h => h.not_send).trans hl'
  · exact Co.Talks.throw hl'

/-- A repetition that is allowed now. -/
theorem repeat_talks (hrecovers : l.Refused path ∨ l.Lost path)
    (hmay : ∀ q, q.purpose = .request → Carries method path jsonData params q →
      MayAsk method path jsonData params l q) :
    (requestOnce .request method path jsonData params none).Talks (fun _ => True)
      (MayAsk method path jsonData params) l (RequestEnds path) :=
  requestOnce_talks hmay (fun _ _ hq => .answered rfl hq rfl) fun _ => .unrecovered hrecovers rfl

/-- What follows the loss of the one send, or its refusal. -/
theorem recover_talks {q : Exchange} {outcome : Outcome} {rest : Chat} {err : Exc}
    (hostBefore : String) (hrest : rest.sends = []) (hq : q.purpose = .request)
    (herr : (outcome >>= readResponse path) = .error err) :
    (recover method path jsonData params hostBefore err).Talks (fun _ => True)
      (MayAsk method path jsonData params) ((q, outcome) :: rest) (RequestEnds path) := by
  have hsends : Chat.sends ((q, outcome) :: rest) = [(q, outcome)] := by
    rw [Chat.sends, List.filter_cons_of_pos (by simpa using hq)]
    exact congrArg _ hrest
  unfold recover
  split
  · rename_i status message endpoint
    refine Co.Talks.state_bind fun m _ => ?_
    dsimp only
    split_ifs with hpass
    · exact Co.Talks.throw (.answered rfl hq herr.symm)
    · obtain rfl : status = 401 := by
        by_contra hstatus
        exact hpass (.inl hstatus)
      have hrefused : ∀ {l' : Chat}, Chat.Extends Chat.IsLogin ((q, outcome) :: rest) l' →
          l'.Refused path := fun hl' =>
        ⟨q, outcome, message, endpoint, (hl'.sends_eq fun _ h => h.not_send).trans hsends, herr⟩
      have hmay : MayLogIn (MayAsk method path jsonData params) ((q, outcome) :: rest) :=
        fun _ _ hl' hlogin => .logsIn (hrefused hl') hlogin
      refine (relogin_talks hmay (.refl _ _)).bind (fun _ l' htold => ?_) fun e l' htold =>
        .unrecovered (.inl (hrefused htold.logins)) rfl
      exact repeat_talks (.inl (hrefused htold.logins)) fun q' hq' hcarries =>
        .asksAgain (hrefused htold.logins) (htold.answered rfl) hq' hcarries
  · split_ifs with hlost
    · have hlostAt : ∀ {l' : Chat}, Chat.Extends Chat.IsProbe ((q, outcome) :: rest) l' →
          l'.Lost path := fun hl' =>
        ⟨q, outcome, err, (hl'.sends_eq fun _ h => h.not_send).trans hsends, herr, hlost⟩
      have hmay : MaySearch (MayAsk method path jsonData params) ((q, outcome) :: rest) :=
        fun _ _ hl' hprobe => .searches (hlostAt hl') hprobe
      refine (failoverIfPeers_talks (some hostBefore) true hmay).bind (fun moved l' htold => ?_)
        fun e l' htold => .unrecovered (.inr (hlostAt htold.probes)) rfl
      split_ifs with hmoved
      · have hfound : Chat.Found l' ∨ ∃ x, l'.head? = some x ∧ x ∈ Chat.sends l' := by
          rcases htold.found (by rw [hmoved]) with hfound | rfl
          · exact .inl hfound
          · exact .inr ⟨(q, outcome), rfl, by simp [hsends]⟩
        exact repeat_talks (.inr (hlostAt htold.probes)) fun q' hq' hcarries =>
          .asksElsewhere (hlostAt htold.probes) hfound hq' hcarries
      · exact Co.Talks.throw (.unrecovered (.inr (hlostAt htold.probes)) rfl)
    · exact Co.Talks.throw (.answered rfl hq herr.symm)

/-- A request says what it may ask, and ends as told. -/
theorem request_talks :
    (request method path jsonData params).Talks (fun _ => True)
      (MayAsk method path jsonData params) [] (RequestEnds path) := by
  refine (renewalStage_talks mayAsk_mayRenew).bind (fun _ l hunsent => ?_)
    fun _ l hunsent => .unsent hunsent rfl
  refine currentHost_mute.talks_bind (fun hostBefore _ => ?_) fun e _ => .unsent hunsent rfl
  have honce : (requestOnce .request method path jsonData params none).Talks (fun _ => True)
      (MayAsk method path jsonData params) l fun r l' =>
        (∃ q outcome, q.purpose = .request ∧ (outcome >>= readResponse path) = r ∧
          l' = (q, outcome) :: l) ∨ ∃ key, r = .error (.keyError key) ∧ l' = l :=
    requestOnce_talks (fun q hq hcarries => .asks hunsent hq hcarries)
      (fun q outcome hq => .inl ⟨q, outcome, hq, rfl, rfl⟩) fun key => .inr ⟨key, rfl, rfl⟩
  refine honce.tryCatch (fun v l' hv => ?_) fun err l' herr => ?_
  · rcases hv with ⟨q, outcome, hq, hread, rfl⟩ | ⟨key, hkey, -⟩
    · exact .answered rfl hq hread.symm
    · contradiction
  · rcases herr with ⟨q, outcome, hq, hread, rfl⟩ | ⟨key, hkey, rfl⟩
    · exact recover_talks hostBefore hunsent hq hread
    · cases hkey
      exact Co.Talks.throw (.unsent hunsent rfl)

/-! ## The host it is repeated on -/

/-- The client uses another host than it did. -/
def MovedSince (before now : Machine) : Prop :=
  ∃ host host', before.client.host = .ok host ∧ now.client.host = .ok host' ∧ host ≠ host'

/-- A send that comes right after another one finds the client on another host. -/
def MovedBetween (before now : Machine) (l : Chat) (q : Exchange) : Prop :=
  q.purpose = .request → (∃ x ∈ l.head?, x.1.purpose = .request) → MovedSince before now

/-- Every exchange but a send may be made on any host. -/
theorem movedBetween_of_ne {before now : Machine} {l : Chat} {q : Exchange}
    (hq : q.purpose ≠ .request) : MovedBetween before now l q :=
  fun h => absurd h hq

/-- So may a send that comes after something else. -/
theorem movedBetween_of_head {before now : Machine} {q x : Exchange} {outcome : Outcome}
    {rest : Chat} (hx : x.purpose ≠ .request) :
    MovedBetween before now ((x, outcome) :: rest) q := by
  rintro - ⟨y, hy, hpurpose⟩
  cases hy
  exact absurd hpurpose hx

theorem isLogin_ne {purpose : Purpose} (h : purpose.isLogin = true) : purpose ≠ .request := by
  rintro rfl
  contradiction

theorem isProbe_ne {purpose : Purpose} (h : purpose.isProbe = true) : purpose ≠ .request := by
  rintro rfl
  contradiction

section Moves

variable {m before : Machine} {hostBefore : String}
  {mayNow : Machine → Chat → Exchange → Prop}

/-- Naming the host in use minds nothing. -/
@[simp]
theorem minds_currentHost {Q : Except Exc String → Machine → Chat → Prop} :
    currentHost.Minds mayNow Q m l ↔ Q m.client.host m l :=
  Iff.rfl

/-- A search that returns true has found a host, or finds another one in use than the host it
was told of. -/
theorem switchHost_minds_moved (verifyCurrent : Bool) :
    (switchHost (some hostBefore) verifyCurrent).Minds (fun _ _ q => q.purpose ≠ .request)
      (fun r m' l' => r = .ok true →
        Chat.Found l' ∨ ∃ host, m'.client.host = .ok host ∧ hostBefore ≠ host) m l := by
  simp only [switchHost, self, movedFrom, Co.minds_bind, Co.minds_state, Co.minds_pure,
    minds_currentHost]
  cases hhost : m.client.host with
  | error e => simp
  | ok host =>
      by_cases hsame : hostBefore = host
      · have htalks : (searchHost m.client.hostIndex verifyCurrent).Talks (fun _ => True)
            (fun _ q => q.purpose.isProbe = true) l (WalkSays l) :=
          searchHost_talks _ _ fun _ _ _ h => h
        have hsearch := htalks.minds (s := m) trivial (Co.minds_nothing _ m l)
        simp only [hsame, bne_self_eq_false, Bool.false_eq_true, if_false]
        exact hsearch.mono (fun _ _ _ h => isProbe_ne h.1) fun r m' l' h hr => .inl (h.1.found hr)
      · have hmoved : (hostBefore != host) = true := by simpa using hsame
        simp only [hmoved, if_true, Co.minds_bind, minds_currentHost, Co.minds_pure, hhost]
        exact fun _ => .inr ⟨host, rfl, hsame⟩

/-- Where a search says that the client has moved, a candidate was found or the host is another
one. -/
theorem failoverIfPeers_minds_moved (verifyCurrent : Bool) :
    (failoverIfPeers (some hostBefore) verifyCurrent).Minds (fun _ _ q => q.purpose ≠ .request)
      (fun r m' l' => r = .ok true →
        Chat.Found l' ∨ ∃ host, m'.client.host = .ok host ∧ hostBefore ≠ host) m l := by
  simp only [failoverIfPeers, self, Co.minds_bind, Co.minds_state, Co.minds_pure]
  split_ifs
  · simp
  · simp only [failover, Co.minds_bind, Co.minds_remark, Co.minds_withLock, Co.minds_pure]
    refine fun m' => (switchHost_minds_moved verifyCurrent).mono (fun _ _ _ h => h)
      fun r m₂ l₂ h => ?_
    cases r with
    | error e => simp
    | ok moved => exact h

/-- One attempt is one call, and what it goes on with is to read the answer. -/
theorem requestOnce_throughout {purpose : Purpose} {timeout : Option ℚ}
    {P : Machine → Chat → Exchange → (Outcome → Prog Json) → Prop}
    {Q : Except Exc Json → Machine → Chat → Prop}
    (hP : ∀ request, P m l ⟨purpose, request⟩ fun r => Co.ofExcept (r >>= readResponse path))
    (hQ : ∀ r m' l', Q r m' l') :
    (requestOnce purpose method path jsonData params timeout).Throughout P Q m l := by
  have hread : ∀ r : Outcome, (Co.ofExcept r >>= fun response =>
      Co.ofExcept (readResponse path response) : Prog Json) =
        Co.ofExcept (r >>= readResponse path) := by
    intro r
    cases r <;> rfl
  change (Co.ofExcept (buildRequest m.client method path jsonData params timeout) >>=
    fun request => Co.await ⟨purpose, request⟩ >>= fun response =>
      Co.ofExcept (readResponse path response) : Prog Json).Throughout P Q m l
  cases buildRequest m.client method path jsonData params timeout with
  | error e => exact hQ _ m l
  | ok request =>
      refine ⟨?_, fun r m' => ?_⟩
      · have hone := hP request
        simp only [← hread] at hone
        exact hone
      · cases r with
        | error e => exact hQ _ m' _
        | ok response => exact hQ _ m' _

/-- Nothing follows the last attempt. -/
theorem requestOnce_lasts {rel : Machine → Machine → Chat → Exchange → Prop}
    {pick : Exchange → Prop} :
    (requestOnce .request method path jsonData params none).Lasts pick rel m l :=
  requestOnce_throughout (fun _ _ _ _ => trivial) fun _ _ _ => trivial

/-- One attempt, made on a host that allows it. -/
theorem requestOnce_minds_moved {q : Exchange} {outcome : Outcome} {rest : Chat}
    (h : q.purpose ≠ .request ∨ MovedSince before m) :
    (requestOnce .request method path jsonData params none).Minds (MovedBetween before)
      (fun _ _ _ => True) m ((q, outcome) :: rest) := by
  refine requestOnce_throughout (fun request => ?_) fun _ _ _ => trivial
  rcases h with hq | hmoved
  · exact movedBetween_of_head hq
  · exact fun _ _ => hmoved

/-- A login moves nobody. -/
theorem relogin_minds_logged :
    relogin.Minds (fun _ _ q => q.purpose ≠ .request)
      (fun r _ l' => r = .ok () → Chat.LoggedIn l') m l := by
  have htalks : relogin.Talks (fun _ => True) (fun _ q => q.purpose.isLogin = true) l
      (LoginSays l) :=
    relogin_talks (fun _ _ _ h => h) (.refl _ l)
  exact (htalks.minds (s := m) trivial (Co.minds_nothing _ m l)).mono
    (fun _ _ _ h => isLogin_ne h.1) fun _ _ _ h => h.1.answered

/-- What follows the loss of the one send, or its refusal: a second send comes after a login or
the probe of a host that was found, or finds the client on another host. -/
theorem recover_minds_moved {q : Exchange} {outcome : Outcome} {rest : Chat} (err : Exc)
    (hbefore : before.client.host = .ok hostBefore) :
    (recover method path jsonData params hostBefore err).Minds (MovedBetween before)
      (fun _ _ _ => True) m ((q, outcome) :: rest) := by
  unfold recover
  split
  · simp only [self, Co.minds_bind, Co.minds_state, Co.minds_pure]
    split_ifs
    · trivial
    · rw [Co.minds_bind]
      refine relogin_minds_logged.mono (fun _ _ _ h => movedBetween_of_ne h)
        fun r m' l' hlogged => ?_
      cases r with
      | error e => trivial
      | ok u =>
          rcases hlogged rfl with ⟨q', response, rest', rfl, hq'⟩
          exact requestOnce_minds_moved (.inl (isLogin_ne hq'))
  · split_ifs with hlost
    · rw [Co.minds_bind]
      have htalks : (failoverIfPeers (some hostBefore) true).Talks (fun _ => True)
          (fun _ _ => True) ((q, outcome) :: rest) (SearchSays ((q, outcome) :: rest)) :=
        failoverIfPeers_talks _ _ fun _ _ _ _ => trivial
      have hsearch := htalks.minds (s := m) trivial (failoverIfPeers_minds_moved true)
      refine hsearch.mono (fun _ _ _ h => movedBetween_of_ne h.2) fun r m' l' htold => ?_
      cases r with
      | error e => trivial
      | ok moved =>
          simp only
          split_ifs with hmoved
          · rcases htold.2 (by rw [hmoved]) with ⟨x, out, rest', rfl, hx, -⟩ | ⟨host, hhost, hne⟩
            · refine requestOnce_minds_moved (.inl ?_)
              rw [hx]
              exact Purpose.noConfusion
            · rcases htold.1.found (by rw [hmoved]) with ⟨x, out, rest', rfl, hx, -⟩ | rfl
              · refine requestOnce_minds_moved (.inl ?_)
                rw [hx]
                exact Purpose.noConfusion
              · exact requestOnce_minds_moved (.inr ⟨hostBefore, host, hbefore, hhost, hne⟩)
          · trivial
    · trivial

/-- Nothing follows the second send. -/
theorem recover_lasts {rel : Machine → Machine → Chat → Exchange → Prop} (err : Exc) :
    (recover method path jsonData params hostBefore err).Lasts (·.purpose = .request) rel m l := by
  unfold recover
  split
  · refine Co.lasts_bind (R := fun _ _ _ => True) trivial fun client m l _ => ?_
    split_ifs
    · trivial
    · exact Co.lasts_bind relogin_minds_logged fun _ _ _ _ => requestOnce_lasts
  · split_ifs
    · refine Co.lasts_bind (failoverIfPeers_minds_moved true) fun moved m l _ => ?_
      split_ifs
      · exact requestOnce_lasts
      · trivial
    · trivial

/-- A request that is repeated with nothing asked in between is sent to another host than
before. -/
theorem request_lasts (m : Machine) :
    (request method path jsonData params).Lasts (·.purpose = .request) MovedBetween m [] := by
  have htalks : (tryCatch checkAndRefresh renewElsewhere).Talks (fun _ => True)
      (fun _ q => q.purpose ≠ .request) [] fun _ l' => Chat.sends l' = [] :=
    renewalStage_talks ⟨fun _ _ _ h => isLogin_ne h, fun _ _ _ _ h => isProbe_ne h⟩
  have hrenewal := (htalks.minds (s := m) trivial (Co.minds_nothing _ m [])).mono
    (fun _ _ _ h => h.1) fun _ _ _ h => h
  refine Co.lasts_bind hrenewal fun _ m l _ => ?_
  refine Co.lasts_bind (R := fun r m _ => r = m.client.host) (minds_currentHost.mpr rfl)
    fun hostBefore m l hhost => ?_
  unfold Co.Lasts
  rw [Co.throughout_tryCatch]
  refine requestOnce_throughout (fun request _ r m' => ?_) fun r m' l' => ?_
  · rw [Co.minds_tryCatch]
    simp only [Co.minds_ofExcept]
    cases r >>= readResponse path with
    | ok v => trivial
    | error err => exact recover_minds_moved err hhost.symm
  · cases r with
    | ok v => trivial
    | error err => exact recover_lasts err

end Moves

/-- A step of a run in which a task makes a call. -/
def Asks {τ σ ι ρ ε ω α : Type} [DecidableEq τ] (i : τ) (q : ι) (c c' : Config τ σ ι ρ ε ω α) :
    Prop :=
  ∃ a new, c.step a = some c' ∧ c'.world.history = new ++ c.world.history ∧ .sent i q ∈ new

/-- Whatever the other tasks are and do, and whatever becomes of the state in the meantime, a
request asks nothing but what it may ask after what it has asked and been answered; where it
has ended, it has ended as told by its conversation; and where it is sent again with nothing
asked since, the client has been moved: it uses another host than when the request was sent
first. -/
theorem request_converses {τ σ : Type} [DecidableEq τ] (method path : String)
    (jsonData params : Option Dict) {i : τ}
    {tasks : τ → Co (σ × Machine) Exchange Outcome Exc Remark Json}
    (hi : tasks i = (request method path jsonData params).beside) (s : σ × Machine)
    {c : Config τ (σ × Machine) Exchange Outcome Exc Remark Json}
    (hrun : Config.Reaches (fun _ _ => True) (.initial s tasks) c) :
    Along (Asked (MayAsk method path jsonData params) i) c.world.history ∧
      (∀ r, c.result i = some r → RequestEnds path r (conversation i c.world.history)) ∧
      ∀ first c', Asks i first c c' → first.purpose = .request →
        ∀ again d d', Config.Reaches (fun _ _ => True) c' d → Asks i again d d' →
          MovedBetween c'.world.state.2 d'.world.state.2
            (conversation i d'.world.history) again := by
  have htalks : (tasks i).Talks (fun _ => True) (MayAsk method path jsonData params) []
      (RequestEnds path) := by
    rw [hi]
    exact request_talks.beside
  rcases hrun.talks (S := fun _ => True) htalks fun _ _ _ => trivial with ⟨hasked, hends⟩
  refine ⟨hasked, hends, ?_⟩
  rintro first c' ⟨a, new, hstep, hnew, hsent⟩ hfirst again d d' hthen
    ⟨a', new', hstep', hnew', hsent'⟩
  have hlasts : ∀ both, (tasks i).Lasts (·.purpose = .request)
      (fun before now => MovedBetween before.2 now.2) both [] := by
    intro both
    rw [hi]
    exact (request_lasts both.2).beside
  exact hrun.lasts hlasts hstep hnew hsent hfirst hthen hstep' hnew' hsent'

/-- Two tasks lose the host; the first moves the client, and the second is sent again where it
finds the client. -/
theorem request_converses_witness :
    ∃ c c' d d' : Config (Fin 2) (Unit × Machine) Exchange Outcome Exc Remark Json,
      (∃ q, Asks 1 q c c') ∧ (∃ q, Asks 1 q d d') ∧
        (Chat.sends (conversation 1 d'.world.history)).length = 1 ∧
        MovedSince c'.world.state.2 d'.world.state.2 ∧
        Along (Asked (MayAsk "GET" "nodes" none none) 1) d'.world.history ∧
        ∀ r, d'.result 1 = some r → RequestEnds "nodes" r (conversation 1 d'.world.history) := by
  obtain ⟨c, c', d, d', first, again, hrun, hstep, hnew, hfirst, hthen, hstep', hnew', hagain,
      hsends, hhead⟩ :
      ∃ (c c' d d' : Config (Fin 2) (Unit × Machine) Exchange Outcome Exc Remark Json)
        (first again : Exchange),
        Config.run (.initial ((), ⟨.loggedIn ["192.0.2.1", "192.0.2.2"], 0⟩) fun _ : Fin 2 =>
          (request "GET" "nodes" none none).beside) [.start 0] = some c ∧
        c.step (.start 1) = some c' ∧
        c'.world.history = [.sent 1 first] ++ c.world.history ∧ first.purpose = .request ∧
        c'.run [.resume 0 (replyOf false), .resume 1 (replyOf false), .lock 0,
          .resume 0 (replyOf false), .resume 0 (replyOf true)] = some d ∧
        d.step (.lock 1) = some d' ∧
        d'.world.history = [.sent 1 again, .noted 1 (.failoverReturned true), .released 1,
          .locked 1] ++ d.world.history ∧ again.purpose = .request ∧
        (Chat.sends (conversation 1 d'.world.history)).length = 1 ∧
        ((conversation 1 d'.world.history).head?.map fun x => x.1.purpose) = some .request :=
    ⟨_, _, _, _, _, _, by and_intros <;> with_unfolding_all rfl⟩
  have hreach : Config.Reaches (fun _ _ => True) _ c :=
    Config.reaches_of_run (fun _ _ _ => trivial) hrun
  have hthen : Config.Reaches (fun _ _ => True) c' d :=
    Config.reaches_of_run (fun _ _ _ => trivial) hthen
  have hasks : Asks 1 first c c' := ⟨_, _, hstep, hnew, List.mem_cons_self⟩
  have hasks' : Asks 1 again d d' := ⟨_, _, hstep', hnew', List.mem_cons_self⟩
  have hmoved := (request_converses "GET" "nodes" none none (i := (1 : Fin 2)) (by rfl) _
    hreach).2.2 first c' hasks hfirst again d d' hthen hasks' hagain
  have hwhole := request_converses "GET" "nodes" none none (i := (1 : Fin 2)) (by rfl) _
    (((hreach.tail trivial hstep).trans hthen).tail trivial hstep')
  refine ⟨c, c', d, d', ⟨first, hasks⟩, ⟨again, hasks'⟩, hsends, hmoved ?_, hwhole.1, hwhole.2.1⟩
  rcases Option.map_eq_some_iff.mp hhead with ⟨x, hx, hpurpose⟩
  exact ⟨x, hx, hpurpose⟩

end Request

end AioProxmox
