import AioProxmox.Client.Pipeline
import AioProxmox.Coroutine.Frame

/-!
# Client - solitary runs of the pipeline

What the parts of the pipeline do when nobody else touches the client: the
values they compute and the fields they leave alone.

Main results:

- Theorem {lit}`exec_requestOnce`: an attempt is one exchange, and its result a
  function of the answer.
- Theorems {lit}`answers_keeps`, {lit}`login_keeps` and {lit}`failover_keeps`:
  a probe leaves the client alone, a login all but the tokens, a failover all but
  the host in use.
- Theorem {lit}`request_keepsFixed`: a request leaves the credentials and the host
  list alone.
-/

namespace AioProxmox

open Coroutine

/-- Nobody else touches the client; only the clock moves. -/
def Quiet (E : Surroundings Machine Outcome) : Prop :=
  ∀ n m, (E.during n m).client = m.client

section Atoms

variable {τ : Type} (E : Surroundings Machine Outcome) (i : τ) (n : Nat)
  (w : World τ Machine Exchange Outcome Remark)

/-- Reading the client. -/
@[simp]
theorem exec_self : self.exec E i n w = ⟨.ok w.state.client, n, w⟩ :=
  rfl

/-- Naming the host in use. -/
@[simp]
theorem exec_currentHost : currentHost.exec E i n w = ⟨w.state.client.host, n, w⟩ :=
  rfl

/-- Where there is a host in use, it is compared with the one the caller was on. -/
theorem exec_movedFrom {current : String} (hcurrent : w.state.client.host = .ok current)
    (fromHost : Option String) :
    (movedFrom fromHost).exec E i n w = ⟨.ok (fromHost.any (· != current)), n, w⟩ := by
  unfold movedFrom
  cases fromHost with
  | none => rfl
  | some host => simp [hcurrent]

/-- An attempt whose request can be built is one exchange. -/
theorem exec_requestOnce (purpose : Purpose) (method path : String)
    (jsonData params : Option Dict) (timeout : Option ℚ) :
    (requestOnce purpose method path jsonData params timeout).exec E i n w =
      match buildRequest w.state.client method path jsonData params timeout with
      | .ok request =>
          ⟨E.reply n >>= readResponse path, n + 1,
            ⟨E.during n w.state,
              .got i ⟨purpose, request⟩ (E.reply n) :: .sent i ⟨purpose, request⟩ ::
                w.history⟩⟩
      | .error e => ⟨.error e, n, w⟩ := by
  rw [requestOnce, Co.exec_bind, exec_self]
  cases hrequest : buildRequest w.state.client method path jsonData params timeout with
  | error e => simp [hrequest]
  | ok request =>
      simp only [Co.exec_bind, Co.exec_ofExcept, Co.exec_await, hrequest]
      cases E.reply n <;> rfl

end Atoms

/-- The world after one exchange. -/
def exchanged {τ : Type} (E : Surroundings Machine Outcome) (i : τ) (q : Exchange) (n : Nat)
    (w : World τ Machine Exchange Outcome Remark) : World τ Machine Exchange Outcome Remark :=
  ⟨E.during n w.state, .got i q (E.reply n) :: .sent i q :: w.history⟩

/-- The exception that building the headers ends in, if any. -/
def Auth.headersError (auth : Auth) : Option Exc :=
  match auth.getHeaders with
  | .ok _ => none
  | .error e => some e

/-- The exchange carries what an attempt was asked to send. -/
structure Carries (method path : String) (jsonData params : Option Dict) (q : Exchange) :
    Prop where
  sameMethod : q.request.method = method
  samePath : ∃ base, q.request.url = base ++ "/" ++ Text.lstrip '/' path
  sameQuery : q.request.query = requestQuery method jsonData params
  sameJson : q.request.json = requestJson method jsonData
  noForm : q.request.data = none

section Attempt

variable {τ : Type} {E : Surroundings Machine Outcome} {i : τ} {n : Nat}
  {w : World τ Machine Exchange Outcome Remark}

/-- Where the headers can be built, so can the request, and it carries the attempt. -/
theorem buildRequest_carries (purpose : Purpose) (method path : String)
    (jsonData params : Option Dict) (timeout : Option ℚ) {client : ProxmoxVE}
    (h : client.auth.headersError = none) :
    ∃ request, buildRequest client method path jsonData params timeout = .ok request ∧
      Carries method path jsonData params ⟨purpose, request⟩ := by
  unfold Auth.headersError at h
  unfold buildRequest
  rcases hheaders : client.auth.getHeaders with e | headers
  · rw [hheaders] at h
    contradiction
  · exact ⟨_, rfl, rfl, ⟨_, rfl⟩, rfl, rfl, rfl⟩

/-- An attempt whose headers can be built is one exchange that carries it. -/
theorem exec_attempt (purpose : Purpose) (method path : String)
    (jsonData params : Option Dict) (timeout : Option ℚ)
    (h : w.state.client.auth.headersError = none) :
    ∃ q, q.purpose = purpose ∧ Carries method path jsonData params q ∧
      (requestOnce purpose method path jsonData params timeout).exec E i n w =
        ⟨E.reply n >>= readResponse path, n + 1, exchanged E i q n w⟩ := by
  rcases buildRequest_carries purpose method path jsonData params timeout h with
    ⟨request, hrequest, hcarries⟩
  refine ⟨⟨purpose, request⟩, rfl, hcarries, ?_⟩
  rw [exec_requestOnce, hrequest]
  rfl

/-- An attempt whose headers cannot be built raises before anything is sent. -/
theorem exec_attempt_error (purpose : Purpose) (method path : String)
    (jsonData params : Option Dict) (timeout : Option ℚ) {e : Exc}
    (h : w.state.client.auth.headersError = some e) :
    (requestOnce purpose method path jsonData params timeout).exec E i n w =
      ⟨.error e, n, w⟩ := by
  have hbuilt : buildRequest w.state.client method path jsonData params timeout = .error e := by
    unfold Auth.headersError at h
    unfold buildRequest
    rcases hheaders : w.state.client.auth.getHeaders with e' | headers
    · rw [hheaders] at h
      cases h
      rfl
    · rw [hheaders] at h
      contradiction
  rw [exec_requestOnce, hbuilt]

end Attempt

/-- Only the name of a service can keep headers from being built. -/
theorem Auth.headersError_keyError {auth : Auth} {e : Exc} (h : auth.headersError = some e) :
    auth.hasRelogin = false ∧ ∃ key, e = .keyError key := by
  unfold headersError at h
  cases auth with
  | ticket auth => contradiction
  | token auth =>
      refine ⟨rfl, ?_⟩
      simp only [getHeaders, lookupService] at h
      rcases hservice : services.lookup auth.service with _ | entry
      · rw [hservice] at h
        cases h
        exact ⟨_, rfl⟩
      · rw [hservice] at h
        contradiction

/-! ## What is left alone -/

/-- The authentication without what a login acquires. -/
def Auth.withoutTokens : Auth → Auth
  | .ticket auth =>
      .ticket { auth with
        capabilities := none, pveAuthTicket := .null, csrfPreventionToken := .null
        birthTime := 0 }
  | .token auth => .token auth

/-- The client without what a login acquires. -/
def ProxmoxVE.withoutTokens (client : ProxmoxVE) : ProxmoxVE :=
  { client with auth := client.auth.withoutTokens }

/-- The client without what names the host in use. -/
def ProxmoxVE.withoutHost (client : ProxmoxVE) : ProxmoxVE :=
  { client with hostIndex := 0, baseUrl := "", auth := client.auth.setBaseUrl "" }

section Keeps

variable {τ : Type} {E : Surroundings Machine Outcome} {i : τ}

/-- Reading the client changes nothing. -/
theorem self_keeps {R : Machine → Machine → Prop} [Std.Refl R] : Keeps E i R self :=
  fun _ w => refl_of R w.state

/-- Naming the host in use changes nothing. -/
theorem currentHost_keeps {R : Machine → Machine → Prop} [Std.Refl R] :
    Keeps E i R currentHost :=
  fun _ w => refl_of R w.state

/-- Reading the ticket changes nothing. -/
theorem ticketAuth_keeps {R : Machine → Machine → Prop} [Std.Refl R] :
    Keeps E i R ticketAuth := by
  intro n w
  rw [ticketAuth, Co.exec_bind, exec_self]
  simp only
  split
  · exact refl_of R w.state
  · exact refl_of R w.state

/-- An attempt leaves the client alone. -/
theorem requestOnce_keeps (hE : Quiet E) (purpose : Purpose) (method path : String)
    (jsonData params : Option Dict) (timeout : Option ℚ) :
    Keeps E i (Unchanged Machine.client)
      (requestOnce purpose method path jsonData params timeout) := by
  refine self_keeps.bind fun client => (Keeps.ofExcept _).bind fun request => ?_
  exact (Keeps.await fun n m => hE n m).bind fun response => Keeps.ofExcept _

/-- A probe leaves the client alone. -/
theorem answers_keeps (hE : Quiet E) (candidate : Bool) :
    Keeps E i (Unchanged Machine.client) (answers candidate) := by
  refine ((requestOnce_keeps hE _ _ _ _ _ _).bind fun _ => Keeps.pure _).tryCatch ?_
  intro err
  unfold silent
  split
  · exact currentHost_keeps.bind fun _ => Keeps.pure _
  · split_ifs
    · exact currentHost_keeps.bind fun _ => Keeps.pure _
    · exact Keeps.throw _

/-- What a login leaves alone. -/
abbrev LoginFrame : Machine → Machine → Prop :=
  Unchanged fun m => m.client.withoutTokens

/-- Changing the tokens changes nothing else. -/
theorem mapTicket_loginFrame {f : ProxmoxHTTPAuth → ProxmoxHTTPAuth}
    (hf : ∀ auth, (Auth.ticket (f auth)).withoutTokens = (Auth.ticket auth).withoutTokens)
    (m : Machine) : LoginFrame m (m.mapTicket f) := by
  unfold Machine.mapTicket
  split
  · rename_i auth hauth
    simp only [Unchanged, ProxmoxVE.withoutTokens, hauth, hf]
  · rfl

/-- Quiet surroundings do no more than a login. -/
theorem Quiet.loginFrame (hE : Quiet E) (n : Nat) (m : Machine) :
    LoginFrame m (E.during n m) :=
  congrArg ProxmoxVE.withoutTokens (hE n m)

/-- Adopting the tokens does what a login does. -/
theorem adoptTokens_keeps (data : Json) : Keeps E i LoginFrame (adoptTokens data) := by
  refine (Keeps.modify fun m => ?_).bind fun _ => (Keeps.ofExcept _).bind fun ticket =>
    (Keeps.modify fun m => ?_).bind fun _ => (Keeps.ofExcept _).bind fun csrf =>
      Keeps.modify fun m => ?_
  · exact mapTicket_loginFrame (by intro auth; rfl) m
  · exact mapTicket_loginFrame (by intro auth; rfl) m
  · exact mapTicket_loginFrame (by intro auth; rfl) m

/-- Adopting the capabilities does what a login does. -/
theorem adoptCapabilities_keeps (data : Json) :
    Keeps E i LoginFrame (adoptCapabilities data) := by
  unfold adoptCapabilities
  split
  · refine (Keeps.ofExcept _).bind fun capabilities => Keeps.modify fun m => ?_
    exact mapTicket_loginFrame (by intro auth; rfl) m
  · exact Keeps.pure _

/-- A post does what a login does, with what happens meanwhile. -/
theorem postTicket_keeps (hE : Quiet E) (purpose : Purpose) (auth : ProxmoxHTTPAuth)
    (timeout : ℚ) (data : Dict) :
    Keeps E i LoginFrame (postTicket purpose auth timeout data) :=
  Keeps.await hE.loginFrame

/-- The second factor does what a login does. -/
theorem secondFactor_keeps (hE : Quiet E) (otp : Option Bool) (otptype : Option String)
    (timeout : ℚ) : Keeps E i LoginFrame (secondFactor otp otptype timeout) := by
  refine ticketAuth_keeps.bind fun auth => (postTicket_keeps hE _ _ _ _).bind fun response =>
    (Keeps.ofExcept _).bind fun otpJson => (Keeps.ofExcept _).bind fun data => ?_
  split_ifs
  · exact adoptTokens_keeps data
  · exact Keeps.throw _

/-- A login leaves all but the tokens alone. -/
theorem login_keeps (hE : Quiet E) (password : Option String) (otp : Option Bool)
    (otptype : Option String) : Keeps E i LoginFrame (getNewTokens password otp otptype) := by
  refine ticketAuth_keeps.bind fun auth => (postTicket_keeps hE _ _ _ _).bind fun response => ?_
  split_ifs
  · refine (Keeps.ofExcept _).bind fun resJson => (Keeps.ofExcept _).bind fun data =>
      (adoptTokens_keeps data).bind fun _ => (adoptCapabilities_keeps data).bind fun _ =>
        (Keeps.ofExcept _).bind fun needTfa => ?_
    split_ifs
    · exact secondFactor_keeps hE _ _ _
    · exact Keeps.pure _
  · exact ticketAuth_keeps.bind fun now => Keeps.throw _

/-- {lit}`relogin` does what a login does. -/
theorem relogin_keeps (hE : Quiet E) : Keeps E i LoginFrame relogin := by
  refine (Keeps.remark _).bind fun _ => Keeps.bind ?_ fun _ => Keeps.remark _
  exact ticketAuth_keeps.bind fun auth => login_keeps hE _ _ _

/-- A renewal leaves all but the tokens alone. -/
theorem checkAndRefresh_keeps (hE : Quiet E) : Keeps E i LoginFrame checkAndRefresh := by
  refine Keeps.state.bind fun m => ?_
  split
  · exact Keeps.pure _
  · split_ifs
    · refine (login_keeps hE _ _ _).tryCatch fun err => ?_
      unfold refused
      split
      · exact relogin_keeps hE
      · exact Keeps.throw _
    · exact Keeps.pure _

/-- What a failover leaves alone. -/
abbrev FailoverFrame : Machine → Machine → Prop :=
  Unchanged fun m => m.client.withoutHost

/-- An assignment of the host does what a failover does. -/
theorem useHost_keeps (index : Nat) : Keeps E i FailoverFrame (useHost index) := by
  refine Keeps.bind (Keeps.modify ?_) fun _ => self_keeps.bind fun client =>
    (Keeps.ofExcept _).bind fun host => Keeps.modify fun m => ?_
  · intro m
    rfl
  · simp only [Unchanged, ProxmoxVE.withoutHost, ProxmoxVE.pointAt]
    cases m.client.auth <;> rfl

/-- A probe does what a failover does, with what happens meanwhile. -/
theorem answers_keepsFailover (hE : Quiet E) (candidate : Bool) :
    Keeps E i FailoverFrame (answers candidate) :=
  (answers_keeps hE candidate).unchanged_comp ProxmoxVE.withoutHost

/-- The walk does what a failover does. -/
theorem walk_keeps (hE : Quiet E) (start : Nat) (offsets : List Nat) :
    Keeps E i FailoverFrame (walk start offsets) := by
  induction offsets with
  | nil => exact (useHost_keeps start).bind fun _ => Keeps.pure _
  | cons offset rest ih =>
      refine self_keeps.bind fun client => (useHost_keeps _).bind fun _ =>
        (answers_keepsFailover hE true).bind fun there => ?_
      split_ifs
      · exact self_keeps.bind fun client => (Keeps.ofExcept _).bind fun _ =>
          currentHost_keeps.bind fun _ => Keeps.pure _
      · exact ih

/-- Whether the client has moved is read, not changed. -/
theorem movedFrom_keeps {R : Machine → Machine → Prop} [Std.Refl R] [IsTrans Machine R]
    (fromHost : Option String) : Keeps E i R (movedFrom fromHost) := by
  unfold movedFrom
  split
  · exact Keeps.pure _
  · exact currentHost_keeps.bind fun _ => Keeps.pure _

/-- Whether the current host answers changes what asking it does. -/
theorem stillAnswers_keeps {R : Machine → Machine → Prop} [Std.Refl R]
    (h : Keeps E i R (answers false)) (verifyCurrent : Bool) :
    Keeps E i R (stillAnswers verifyCurrent) := by
  unfold stillAnswers
  split_ifs
  · exact h
  · exact Keeps.pure _

/-- A failover leaves all but the host in use alone. -/
theorem failover_keeps (hE : Quiet E) (fromHost : Option String) (verifyCurrent : Bool) :
    Keeps E i FailoverFrame (failover fromHost verifyCurrent) := by
  refine (Keeps.remark _).bind fun _ => Keeps.bind ?_ fun verdict =>
    (Keeps.remark _).bind fun _ => Keeps.pure _
  refine Keeps.withLock (self_keeps.bind fun client => (movedFrom_keeps fromHost).bind
    fun moved => ?_)
  split_ifs
  · exact currentHost_keeps.bind fun _ => Keeps.pure _
  · have hstill := stillAnswers_keeps (answers_keepsFailover (i := i) hE false) verifyCurrent
    refine hstill.bind fun stillThere => ?_
    split_ifs
    · exact currentHost_keeps.bind fun _ => Keeps.pure _
    · exact self_keeps.bind fun client => walk_keeps hE _ _

end Keeps

/-! ## What only the constructor and the cluster decide -/

/-- What a password client was constructed with. -/
structure Credentials where
  username : String
  password : String
  otp : Option Bool
  otptype : String

/-- The credentials of an authentication. -/
def ProxmoxHTTPAuth.credentials (auth : ProxmoxHTTPAuth) : Credentials where
  username := auth.username
  password := auth.password
  otp := auth.otp
  otptype := auth.otptype

/-- The credentials of a client, where it has a password. -/
def ProxmoxVE.credentials (client : ProxmoxVE) : Option Credentials :=
  match client.auth with
  | .ticket auth => some auth.credentials
  | .token _ => none

/-- The credentials of a client are those of its ticket. -/
theorem ProxmoxVE.credentials_eq {client : ProxmoxVE} {auth : ProxmoxHTTPAuth}
    (h : client.auth = .ticket auth) : client.credentials = some auth.credentials := by
  unfold credentials
  rw [h]

/-- Whoever has credentials has a ticket with them. -/
theorem ProxmoxVE.exists_ticket {client : ProxmoxVE} {credentials : Credentials}
    (h : client.credentials = some credentials) :
    ∃ auth, client.auth = .ticket auth ∧ auth.credentials = credentials := by
  unfold ProxmoxVE.credentials at h
  cases hauth : client.auth with
  | ticket auth =>
      rw [hauth] at h
      exact ⟨auth, rfl, Option.some.inj h⟩
  | token auth =>
      rw [hauth] at h
      contradiction

/-- A client can log in again exactly if it has credentials. -/
theorem ProxmoxVE.hasRelogin_eq (client : ProxmoxVE) :
    client.auth.hasRelogin = client.credentials.isSome := by
  unfold credentials
  cases client.auth <;> rfl

/-- What neither logins nor failovers change. -/
structure Fixed where
  credentials : Option Credentials
  headersError : Option Exc
  hosts : List String

/-- The fixed part of a client. -/
def ProxmoxVE.fixed (client : ProxmoxVE) : Fixed where
  credentials := client.credentials
  headersError := client.auth.headersError
  hosts := client.hosts

@[simp]
theorem ProxmoxVE.fixed_withoutTokens (client : ProxmoxVE) :
    client.withoutTokens.fixed = client.fixed := by
  unfold fixed credentials withoutTokens
  cases client.auth <;> rfl

@[simp]
theorem ProxmoxVE.fixed_withoutHost (client : ProxmoxVE) :
    client.withoutHost.fixed = client.fixed := by
  unfold fixed credentials withoutHost
  cases client.auth <;> rfl

/-- What keeps the fixed part of a client. -/
abbrev FixedFrame : Machine → Machine → Prop :=
  Unchanged fun m => m.client.fixed

/-- What a login changes is not fixed. -/
theorem fixed_of_loginFrame (m m' : Machine) (h : LoginFrame m m') : FixedFrame m m' := by
  have hsame : m'.client.withoutTokens = m.client.withoutTokens := h
  have hfixed := congrArg ProxmoxVE.fixed hsame
  simpa [Unchanged] using hfixed

/-- What a failover changes is not fixed. -/
theorem fixed_of_failoverFrame (m m' : Machine) (h : FailoverFrame m m') :
    FixedFrame m m' := by
  have hsame : m'.client.withoutHost = m.client.withoutHost := h
  have hfixed := congrArg ProxmoxVE.fixed hsame
  simpa [Unchanged] using hfixed

section Keeps

variable {τ : Type} {E : Surroundings Machine Outcome} {i : τ}

/-- A renewal leaves the fixed part alone. -/
theorem checkAndRefresh_keepsFixed (hE : Quiet E) :
    Keeps E i FixedFrame checkAndRefresh :=
  (checkAndRefresh_keeps hE).mono fixed_of_loginFrame

/-- One request leaves the fixed part alone. -/
theorem requestOnce_keepsFixed (hE : Quiet E) (purpose : Purpose)
    (method path : String) (jsonData params : Option Dict) (timeout : Option ℚ) :
    Keeps E i FixedFrame (requestOnce purpose method path jsonData params timeout) :=
  (requestOnce_keeps hE _ _ _ _ _ _).unchanged_comp ProxmoxVE.fixed

/-- {lit}`failover` leaves the fixed part alone where it is called for peers. -/
theorem failoverIfPeers_keepsFixed (hE : Quiet E) (fromHost : Option String)
    (verifyCurrent : Bool) :
    Keeps E i FixedFrame (failoverIfPeers fromHost verifyCurrent) := by
  refine self_keeps.bind fun client => ?_
  split_ifs
  · exact Keeps.pure _
  · exact (failover_keeps hE _ _).mono fixed_of_failoverFrame

/-- {lit}`relogin` leaves the fixed part alone. -/
theorem relogin_keepsFixed (hE : Quiet E) : Keeps E i FixedFrame relogin :=
  (relogin_keeps hE).mono fixed_of_loginFrame

/-- So does a renewal on another host. -/
theorem renewElsewhere_keepsFixed (hE : Quiet E) (err : Exc) :
    Keeps E i FixedFrame (renewElsewhere err) := by
  unfold renewElsewhere
  split_ifs
  · refine (failoverIfPeers_keepsFixed hE _ _).bind fun moved => ?_
    split_ifs
    · exact checkAndRefresh_keepsFixed hE
    · exact Keeps.throw _
  · exact Keeps.throw _

/-- And a second attempt, with what comes before it. -/
theorem recover_keepsFixed (hE : Quiet E) (method path : String) (jsonData params : Option Dict)
    (hostBefore : String) (err : Exc) :
    Keeps E i FixedFrame (recover method path jsonData params hostBefore err) := by
  unfold recover
  split
  · refine self_keeps.bind fun client => ?_
    split_ifs
    · exact Keeps.throw _
    · exact (relogin_keepsFixed hE).bind fun _ => requestOnce_keepsFixed hE _ _ _ _ _ _
  · split_ifs
    · refine (failoverIfPeers_keepsFixed hE _ _).bind fun moved => ?_
      split_ifs
      · exact requestOnce_keepsFixed hE _ _ _ _ _ _
      · exact Keeps.throw _
    · exact Keeps.throw _

/-- A request keeps the fixed part, whatever it goes through. -/
theorem request_keepsFixed (hE : Quiet E) (method path : String)
    (jsonData params : Option Dict) :
    Keeps E i FixedFrame (request method path jsonData params) := by
  have hrenewed : Keeps E i FixedFrame (tryCatch checkAndRefresh renewElsewhere : Prog Unit) :=
    (checkAndRefresh_keepsFixed hE).tryCatch (renewElsewhere_keepsFixed hE)
  refine hrenewed.bind fun _ => currentHost_keeps.bind fun hostBefore => ?_
  exact (requestOnce_keepsFixed hE _ _ _ _ _ _).tryCatch
    (recover_keepsFixed hE method path jsonData params hostBefore)

end Keeps

end AioProxmox
