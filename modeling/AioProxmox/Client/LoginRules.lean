import AioProxmox.Client.RequestRuns
import AioProxmox.Client.Rules
import AioProxmox.Coroutine.Invariance

/-!
# Client - logins among other tasks

Where the exchanges of a client go, and what a login does to an invariant that the
tasks of a client share: a login takes no lock, changes nothing but the tokens, and
posts to the host in use.

Main results:

- Theorem {lit}`Exchange.GoesTo.unique`: an exchange goes to one host.
- Theorem {lit}`Serves.tokens`: what a login changes leaves the host in use alone.
- Theorem {lit}`checkAndRefresh_upholds`: a renewal upholds every invariant that its
  assignments, remarks and posts keep.
-/

namespace AioProxmox

open Coroutine

/-! ## Where an exchange goes -/

/-- Whether an exchange is a {lit}`version` probe. -/
def Purpose.isProbe : Purpose → Bool
  | probe _ => true
  | _ => false

/-- Whether an exchange is a post of a login. -/
def Purpose.isLogin : Purpose → Bool
  | login _ | secondFactor => true
  | _ => false

/-- A login is no probe. -/
theorem Purpose.isProbe_of_isLogin {purpose : Purpose} (h : purpose.isLogin = true) :
    purpose.isProbe = false := by
  cases purpose with
  | probe candidate => contradiction
  | _ => rfl

/-- The URL of an exchange with a host, for the path its caller asked for. -/
def Purpose.urlAt (port : Nat) (path host : String) : Purpose → String
  | request => addressOf (apiUrl host port) path
  | probe _ => addressOf (apiUrl host port) "version"
  | login _ | secondFactor => apiUrl host port ++ "/access/ticket"

/-- An exchange goes to a host. -/
def Exchange.GoesTo (port : Nat) (path host : String) (q : Exchange) : Prop :=
  q.request.url = q.purpose.urlAt port path host

/-- An exchange goes to one host. -/
theorem Exchange.GoesTo.unique {port : Nat} {path a b : String} {q : Exchange}
    (ha : q.GoesTo port path a) (hb : q.GoesTo port path b) : a = b := by
  have h : q.purpose.urlAt port path a = q.purpose.urlAt port path b := ha.symm.trans hb
  cases hpurpose : q.purpose with
  | request =>
      rw [hpurpose] at h
      exact addressOf_injective h
  | probe candidate =>
      rw [hpurpose] at h
      exact addressOf_injective h
  | login password =>
      rw [hpurpose] at h
      exact apiUrl_injective ((String.append_left_inj _).mp h)
  | secondFactor =>
      rw [hpurpose] at h
      exact apiUrl_injective ((String.append_left_inj _).mp h)

/-! ## The client among its tasks -/

/-- A client whose index and URLs agree, with the hosts and the headers it had at
first. -/
structure Serves (first c : ProxmoxVE) : Prop where
  hosts : c.hosts = first.hosts
  port : c.port = first.port
  headers : c.auth.headersError = first.auth.headersError
  relogin : c.auth.hasRelogin = first.auth.hasRelogin
  coherent : c.Coherent

namespace Serves

variable {first c c' : ProxmoxVE} {host path : String} {q : Exchange}

/-- A client serves itself. -/
theorem refl (h : first.Coherent) : Serves first first :=
  ⟨rfl, rfl, rfl, rfl, h⟩

/-- A login does not move the client. -/
theorem tokens (h : Serves first c) (hsame : c'.withoutTokens = c.withoutTokens) :
    Serves first c' ∧ c'.host = c.host := by
  have hfixed : c'.fixed = c.fixed := by
    have := congrArg ProxmoxVE.fixed hsame
    simpa using this
  have hhosts : c'.hosts = c.hosts := congrArg Fixed.hosts hfixed
  have hheaders : c'.auth.headersError = c.auth.headersError :=
    congrArg Fixed.headersError hfixed
  have hrelogin : c'.auth.hasRelogin = c.auth.hasRelogin := by
    rw [c'.hasRelogin_eq, c.hasRelogin_eq]
    exact congrArg (fun fixed => fixed.credentials.isSome) hfixed
  have hindex : c'.hostIndex = c.hostIndex := (congrArg ProxmoxVE.hostIndex hsame :)
  have hport : c'.port = c.port := (congrArg ProxmoxVE.port hsame :)
  have hurl : c'.baseUrl = c.baseUrl := (congrArg ProxmoxVE.baseUrl hsame :)
  have hauth : c'.auth.baseUrl = c.auth.baseUrl := by
    have hkept : ∀ auth : Auth, auth.withoutTokens.baseUrl = auth.baseUrl := by
      intro auth
      cases auth <;> rfl
    rw [← hkept c'.auth, ← hkept c.auth]
    exact congrArg (fun client => client.auth.baseUrl) hsame
  constructor
  · refine ⟨hhosts.trans h.hosts, hport.trans h.port, hheaders.trans h.headers,
      hrelogin.trans h.relogin, ?_, ?_⟩
    · rw [hhosts, hindex, hurl, hport]
      exact h.coherent.host
    · rw [hauth, hurl, hrelogin]
      exact h.coherent.auth
  · simp only [ProxmoxVE.host, ProxmoxVE.hostAt, hhosts, hindex]

/-- Using another host of the list. -/
theorem placedAt (h : Serves first c) {index : Nat} (hhost : c.hosts[index]? = some host) :
    Serves first (c.placedAt index host) where
  hosts := h.hosts
  port := h.port
  headers := by
    rw [ProxmoxVE.placedAt_auth, Auth.headersError, Auth.getHeaders_setBaseUrl]
    exact h.headers
  relogin := by
    rw [ProxmoxVE.placedAt_auth, Auth.hasRelogin_setBaseUrl]
    exact h.relogin
  coherent := ProxmoxVE.placedAt_coherent hhost

/-- There is a host in use, and the URL is its. -/
theorem exists_host (h : Serves first c) :
    ∃ host, c.host = .ok host ∧ c.baseUrl = apiUrl host first.port := by
  rcases h.coherent.host with ⟨host, hhost, hurl⟩
  exact ⟨host, ProxmoxVE.host_eq_ok_iff.mpr hhost, hurl.trans (by rw [h.port])⟩

/-- Its base URL is that of the host in use. -/
theorem baseUrl (h : Serves first c) (hhost : c.host = .ok host) :
    c.baseUrl = apiUrl host first.port := by
  rcases h.exists_host with ⟨other, hother, hurl⟩
  rw [hhost, Except.ok.injEq] at hother
  rw [hurl, hother]

/-- What the client sends goes to the host in use. -/
theorem goesTo (h : Serves first c) (hhost : c.host = .ok host) (hlogin : q.purpose.isLogin = false)
    {sentPath : String} (hurl : q.request.url = addressOf c.baseUrl sentPath)
    (hpath : sentPath = if q.purpose.isProbe then "version" else path) :
    q.GoesTo first.port path host := by
  unfold Exchange.GoesTo
  rw [hurl, h.baseUrl hhost, hpath]
  cases hpurpose : q.purpose with
  | request => rfl
  | probe candidate => rfl
  | login password =>
      rw [hpurpose] at hlogin
      contradiction
  | secondFactor =>
      rw [hpurpose] at hlogin
      contradiction

/-- So do the posts of a login. -/
theorem login_goesTo (h : Serves first c) (hhost : c.host = .ok host) {auth : ProxmoxHTTPAuth}
    (hauth : c.auth = .ticket auth) (hlogin : q.purpose.isLogin = true)
    (hurl : q.request.url = auth.baseUrl ++ "/access/ticket") :
    q.GoesTo first.port path host := by
  have hbase : auth.baseUrl = apiUrl host first.port := by
    rw [← h.baseUrl hhost, ← h.coherent.auth (by rw [hauth]; rfl), hauth]
    rfl
  unfold Exchange.GoesTo
  rw [hurl, hbase]
  cases hpurpose : q.purpose with
  | request =>
      rw [hpurpose] at hlogin
      contradiction
  | probe candidate =>
      rw [hpurpose] at hlogin
      contradiction
  | login password => rfl
  | secondFactor => rfl

end Serves

/-! ## Rules for logins -/

section Logins

variable {τ : Type}

/-- What an invariant and the exceptions of a task have to allow for its logins: the
assignment of tokens, the remarks, and an exchange with the host in use. -/
structure Logins (D : Discipline τ Machine Exchange Outcome Remark) (i : τ) (h : Bool)
    (J : World τ Machine Exchange Outcome Remark → Prop) (P : Exc → Prop) : Prop where
  errors : LoginErrors P
  tokens : ∀ w s, J w → LoginFrame w.state s →
    D.Allows i h w { w with state := s } ∧ J { w with state := s }
  remarks : ∀ w e, J w → e = .reloginEntered ∨ e = .reloginReturned →
    D.Logs i h w (.noted i e) J
  posts : ∀ w q auth, J w → w.state.client.auth = .ticket auth → q.purpose.isLogin = true →
    q.request.url = auth.baseUrl ++ "/access/ticket" →
    D.Logs i h w (.sent i q) fun w₁ => D.suspended w₁ ∧
      ∀ w₂ r, D.rely i h w₁ w₂ → D.suspended w₂ →
        D.Logs i h w₂ (.got i q r) fun w₃ => J w₃ ∧ ExchangeErrors P r

variable {D : Discipline τ Machine Exchange Outcome Remark} {i : τ} {h : Bool}
  {J : World τ Machine Exchange Outcome Remark → Prop} {P : Exc → Prop}

/-- An assignment to the authentication upholds what logins uphold if it keeps all but the tokens.
-/
theorem Logins.modify (hL : Logins D i h J P) {f : Machine → ProxmoxHTTPAuth → ProxmoxHTTPAuth}
    (hf : ∀ m auth, (Auth.ticket (f m auth)).withoutTokens = (Auth.ticket auth).withoutTokens) :
    Co.Upholds D i h J P (Co.modify fun m => m.mapTicket (f m) : Prog Unit) :=
  Co.Upholds.modify fun w hJ => hL.tokens w _ hJ (mapTicket_loginFrame (hf w.state) w.state)

/-- A key that is missing is among the exceptions of a login. -/
theorem getItem_upholds (hL : Logins D i h J P) (data : Json) (key : String) :
    Co.Upholds D i h J P (Co.ofExcept (data.getItem key) : Prog Json) :=
  Co.Upholds.ofExcept fun _ he => hL.errors.lookup _ (Json.getItem_raises he)

/-- A value that is no dictionary is among the exceptions of a login. -/
theorem dictGet_upholds (hL : Logins D i h J P) (data : Json) (key : String) :
    Co.Upholds D i h J P (Co.ofExcept (data.dictGet key) : Prog Json) :=
  Co.Upholds.ofExcept fun _ he => hL.errors.lookup _ (Json.dictGet_raises he)

/-- Adopting the tokens upholds what logins uphold. -/
theorem adoptTokens_upholds (hL : Logins D i h J P) (data : Json) :
    Co.Upholds D i h J P (adoptTokens data) := by
  refine Co.Upholds.bind (hL.modify fun m auth => rfl) fun _ => ?_
  refine (getItem_upholds hL data _).bind fun ticket => ?_
  refine Co.Upholds.bind (hL.modify (f := fun _ auth => { auth with pveAuthTicket := ticket })
    fun m auth => rfl) fun _ => ?_
  refine (getItem_upholds hL data _).bind fun csrf => ?_
  exact hL.modify (f := fun _ auth => { auth with csrfPreventionToken := csrf }) fun m auth => rfl

/-- Adopting the capabilities upholds what logins uphold. -/
theorem adoptCapabilities_upholds (hL : Logins D i h J P) (data : Json) :
    Co.Upholds D i h J P (adoptCapabilities data) := by
  unfold adoptCapabilities
  split
  · refine Co.Upholds.bind (Co.Upholds.ofExcept fun _ he =>
      hL.errors.lookup _ (PVECapabilities.ofKwargs_raises he)) fun capabilities => ?_
    exact hL.modify (f := fun _ auth => { auth with capabilities := some capabilities })
      fun m auth => rfl
  · exact Co.Upholds.pure _

/-- Reading the authentication upholds what logins uphold. -/
theorem ticketAuth_upholds (hL : Logins D i h J P) : Co.Upholds D i h J P ticketAuth := by
  refine Co.Upholds.bind (fun w hJ => ⟨rfl, hJ, by simp⟩) fun client => ?_
  cases client.auth with
  | ticket auth => exact Co.Upholds.pure auth
  | token auth => exact Co.Upholds.throw (hL.errors.lookup _ rfl)

/-- The authentication by ticket is read. -/
theorem wp_ticketAuth {Q : Ends τ ProxmoxHTTPAuth} {w : World τ Machine Exchange Outcome Remark}
    {auth : ProxmoxHTTPAuth} (hauth : w.state.client.auth = .ticket auth) :
    ticketAuth.wp D i h Q w = Q h (.ok auth) w := by
  unfold ticketAuth
  simp only [Co.wp_bind, wp_self, hauth, Co.wp_pure]

/-- With a token there is no authentication by ticket to read. -/
theorem wp_ticketAuth_token {Q : Ends τ ProxmoxHTTPAuth}
    {w : World τ Machine Exchange Outcome Remark} {auth : ProxmoxHTTPApiTokenAuth}
    (hauth : w.state.client.auth = .token auth) :
    ticketAuth.wp D i h Q w = Q h (.error
      (.attributeError "'ProxmoxHTTPApiTokenAuth' object has no such attribute")) w := by
  unfold ticketAuth
  simp only [Co.wp_bind, wp_self, hauth, Co.wp_throw]

/-- A post goes to the host in use, since nothing lies between reading its address
and sending it. -/
theorem ticketPost_upholds {α : Type} (hL : Logins D i h J P)
    {purpose : ProxmoxHTTPAuth → Purpose} {timeout : ProxmoxHTTPAuth → ℚ}
    {data : ProxmoxHTTPAuth → Dict} {f : ProxmoxHTTPAuth → Response → Prog α}
    (hpurpose : ∀ auth, (purpose auth).isLogin = true)
    (hf : ∀ auth response, (∀ e, response.json = .error e → P e) →
      Co.Upholds D i h J P (f auth response)) :
    Co.Upholds D i h J P (do
      let auth ← ticketAuth
      let response ← postTicket (purpose auth) auth (timeout auth) (data auth)
      f auth response) := by
  intro w hJ
  rw [Co.wp_bind]
  cases hauth : w.state.client.auth with
  | token auth =>
      rw [wp_ticketAuth_token hauth]
      exact Co.Upholds.throw (D := D) (i := i) (hL.errors.lookup _ rfl) w hJ
  | ticket auth =>
      rw [wp_ticketAuth hauth]
      have hpost := hL.posts w (ticketExchange (purpose auth) auth (timeout auth) (data auth))
        auth hJ hauth (hpurpose auth) rfl
      refine hpost.mono fun w₁ h₁ => ⟨h₁.1, fun w₂ r hr hs => (h₁.2 w₂ r hr hs).mono ?_⟩
      rintro w₃ ⟨hJ', hreply⟩
      cases r with
      | error e => exact Co.Upholds.throw (hreply.error e rfl) w₃ hJ'
      | ok response => exact hf auth response (fun e he => hreply.json response e rfl he) w₃ hJ'

/-- The second factor upholds what logins uphold. -/
theorem secondFactor_upholds (hL : Logins D i h J P) (otp : Option Bool)
    (otptype : Option String) (timeout : ℚ) :
    Co.Upholds D i h J P (secondFactor otp otptype timeout) := by
  refine ticketPost_upholds hL (fun _ => rfl) fun auth response hjson => ?_
  refine Co.Upholds.bind (Co.Upholds.ofExcept hjson) fun body => ?_
  refine (dictGet_upholds hL body _).bind fun data => ?_
  split_ifs
  · exact adoptTokens_upholds hL data
  · exact Co.Upholds.throw (hL.errors.refusal _)

/-- A login upholds what its assignments, remarks and posts keep. -/
theorem getNewTokens_upholds (hL : Logins D i h J P) (password : Option String)
    (otp : Option Bool) (otptype : Option String) :
    Co.Upholds D i h J P (getNewTokens password otp otptype) := by
  refine ticketPost_upholds hL (fun _ => rfl) fun auth response hjson => ?_
  split_ifs
  · refine Co.Upholds.bind (Co.Upholds.ofExcept hjson) fun body => ?_
    refine (getItem_upholds hL body _).bind fun data => ?_
    refine (adoptTokens_upholds hL data).bind fun _ => ?_
    refine (adoptCapabilities_upholds hL data).bind fun _ => ?_
    refine (dictGet_upholds hL data _).bind fun needTfa => ?_
    split_ifs
    · exact secondFactor_upholds hL _ _ _
    · exact Co.Upholds.pure _
  · exact (ticketAuth_upholds hL).bind fun _ => Co.Upholds.throw (hL.errors.refusal _)

/-- {lit}`relogin` upholds what logins uphold, with its remarks. -/
theorem relogin_upholds (hL : Logins D i h J P) : Co.Upholds D i h J P relogin := by
  refine Co.Upholds.bind (Co.Upholds.remark fun w hJ => hL.remarks w _ hJ (.inl rfl)) fun _ => ?_
  refine Co.Upholds.bind ?_ fun _ => Co.Upholds.remark fun w hJ => hL.remarks w _ hJ (.inr rfl)
  exact (ticketAuth_upholds hL).bind fun auth => getNewTokens_upholds hL _ _ _

/-- So does a renewal. -/
theorem checkAndRefresh_upholds (hL : Logins D i h J P) :
    Co.Upholds D i h J P checkAndRefresh := by
  refine Co.Upholds.bind (fun w hJ => ⟨rfl, hJ, by simp⟩) fun m => ?_
  split
  · exact Co.Upholds.pure _
  · split_ifs
    · refine (getNewTokens_upholds hL _ _ _).tryCatch fun err herr => ?_
      unfold refused
      split
      · exact relogin_upholds hL
      · exact Co.Upholds.throw herr
    · exact Co.Upholds.pure _

end Logins

end AioProxmox
