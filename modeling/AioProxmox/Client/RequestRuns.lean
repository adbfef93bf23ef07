import AioProxmox.Client.Runs
import AioProxmox.Coroutine.Effects

/-!
# Client - the courses of a request

Which events and exceptions each part of the pipeline is good for, and the ways
one undisturbed {lit}`request` can go: which of its parts run, in which order,
and what they hand on.

Main results:

- Theorems {lit}`login_leaves`, {lit}`failover_leaves` and
  {lit}`attempt_leaves`: the three classes of events, which are disjoint.
- Theorem {lit}`renewalStage_raises`: neither renewal nor failover ends in a
  {lit}`ProxmoxAPIError`.
- Theorem {lit}`request_course`: every run of a request follows one of the nine
  courses.
-/

namespace AioProxmox

open Coroutine

/-! ## Events of the parts -/

section Leaves

variable {τ : Type} {i : τ}

/-- Events of a login. -/
def ofLogin : Event τ Exchange Outcome Remark → Prop
  | .sent _ q => q.purpose = .secondFactor ∨ ∃ password, q.purpose = .login password
  | .got _ q _ => q.purpose = .secondFactor ∨ ∃ password, q.purpose = .login password
  | .noted _ e => e = .reloginEntered ∨ e = .reloginReturned
  | .locked _ => False
  | .released _ => False

/-- Events of a failover. -/
def ofFailover : Event τ Exchange Outcome Remark → Prop
  | .sent _ q => ∃ candidate, q.purpose = .probe candidate
  | .got _ q _ => ∃ candidate, q.purpose = .probe candidate
  | .noted _ (.failoverEntered _ _) => True
  | .noted _ (.failoverReturned _) => True
  | .noted _ _ => False
  | .locked _ => True
  | .released _ => True

/-- Events of an attempt. -/
def ofAttempt (purpose : Purpose) : Event τ Exchange Outcome Remark → Prop
  | .sent _ q => q.purpose = purpose
  | .got _ q _ => q.purpose = purpose
  | _ => False

/-- Reading the ticket leaves no event. -/
theorem ticketAuth_leaves {P : Event τ Exchange Outcome Remark → Prop} :
    Co.Leaves i P ticketAuth := by
  refine Co.Leaves.bind (fun _ => trivial) fun client => ?_
  cases client.auth <;> exact trivial

/-- Naming the host in use leaves no event. -/
theorem currentHost_leaves {P : Event τ Exchange Outcome Remark → Prop} :
    Co.Leaves i P currentHost :=
  fun _ => trivial

/-- Adopting tokens leaves no event. -/
theorem adoptTokens_leaves {P : Event τ Exchange Outcome Remark → Prop} (data : Json) :
    Co.Leaves i P (adoptTokens data) :=
  (Co.Leaves.modify _).bind fun _ => (Co.Leaves.ofExcept _).bind fun _ =>
    (Co.Leaves.modify _).bind fun _ => (Co.Leaves.ofExcept _).bind fun _ =>
      Co.Leaves.modify _

/-- A login leaves events of a login. -/
theorem getNewTokens_leaves (password : Option String) (otp : Option Bool)
    (otptype : Option String) :
    Co.Leaves i ofLogin (getNewTokens password otp otptype) := by
  refine ticketAuth_leaves.bind fun auth => Co.Leaves.bind
    (Co.Leaves.await (.inr ⟨password, rfl⟩) fun _ => .inr ⟨password, rfl⟩) fun response => ?_
  split_ifs
  · refine (Co.Leaves.ofExcept _).bind fun body => (Co.Leaves.ofExcept _).bind fun data =>
      (adoptTokens_leaves data).bind fun _ => Co.Leaves.bind ?_ fun _ =>
        (Co.Leaves.ofExcept _).bind fun needTfa => ?_
    · unfold adoptCapabilities
      split
      · exact (Co.Leaves.ofExcept _).bind fun _ => Co.Leaves.modify _
      · exact Co.Leaves.pure _
    · split_ifs
      · refine ticketAuth_leaves.bind fun auth => Co.Leaves.bind
          (Co.Leaves.await (.inl rfl) fun _ => .inl rfl) fun response =>
            (Co.Leaves.ofExcept _).bind fun body => (Co.Leaves.ofExcept _).bind fun data => ?_
        split_ifs
        · exact adoptTokens_leaves data
        · exact Co.Leaves.throw _
      · exact Co.Leaves.pure _
  · exact ticketAuth_leaves.bind fun _ => Co.Leaves.throw _

/-- {lit}`relogin` leaves events of a login, and its remarks. -/
theorem relogin_leaves : Co.Leaves i ofLogin relogin :=
  (Co.Leaves.remark (.inl rfl)).bind fun _ =>
    (ticketAuth_leaves.bind fun _ => getNewTokens_leaves _ _ _).bind fun _ =>
      Co.Leaves.remark (.inr rfl)

/-- A renewal leaves the events of a login. -/
theorem login_leaves : Co.Leaves i ofLogin checkAndRefresh := by
  refine Co.Leaves.bind Co.Leaves.state fun m => ?_
  split
  · exact Co.Leaves.pure _
  · split_ifs
    · refine (getNewTokens_leaves _ _ _).tryCatch fun err => ?_
      unfold refused
      split
      · exact relogin_leaves
      · exact Co.Leaves.throw _
    · exact Co.Leaves.pure _

/-- An attempt leaves the exchange that it has built. -/
theorem attempt_leaves_built {P : Event τ Exchange Outcome Remark → Prop} (purpose : Purpose)
    (method path : String) (jsonData params : Option Dict) (timeout : Option ℚ)
    (hP : ∀ client request, buildRequest client method path jsonData params timeout = .ok request →
      P (.sent i ⟨purpose, request⟩) ∧ ∀ r, P (.got i ⟨purpose, request⟩ r)) :
    Co.Leaves i P (requestOnce purpose method path jsonData params timeout) := by
  refine Co.Leaves.bind (fun _ => trivial) fun client =>
    Co.Leaves.ofExcept_bind fun request hbuilt => ?_
  rcases hP client request hbuilt with ⟨hsent, hgot⟩
  exact (Co.Leaves.await hsent hgot).bind fun _ => Co.Leaves.ofExcept _

/-- An attempt leaves its own exchange. -/
theorem attempt_leaves {P : Event τ Exchange Outcome Remark → Prop} (purpose : Purpose)
    (method path : String) (jsonData params : Option Dict) (timeout : Option ℚ)
    (hP : ∀ e, ofAttempt purpose e → P e) :
    Co.Leaves i P (requestOnce purpose method path jsonData params timeout) := by
  apply attempt_leaves_built
  intro client request _
  constructor
  · exact hP (.sent i ⟨purpose, request⟩) rfl
  · intro r
    exact hP (.got i ⟨purpose, request⟩ r) rfl

/-- A probe leaves events of a failover. -/
theorem answers_leaves (candidate : Bool) : Co.Leaves i ofFailover (answers candidate) := by
  refine Co.Leaves.tryCatch ((attempt_leaves _ _ _ _ _ _ ?_).bind fun _ =>
    Co.Leaves.pure _) fun err => ?_
  · intro e he
    cases e with
    | sent j q => exact ⟨candidate, he⟩
    | got j q r => exact ⟨candidate, he⟩
    | noted j e => exact he.elim
    | locked j => exact he.elim
    | released j => exact he.elim
  · unfold silent
    split
    · exact currentHost_leaves.bind fun _ => Co.Leaves.pure _
    · split_ifs
      · exact currentHost_leaves.bind fun _ => Co.Leaves.pure _
      · exact Co.Leaves.throw _

/-- An assignment of the host leaves no event. -/
theorem useHost_leaves {P : Event τ Exchange Outcome Remark → Prop} (index : Nat) :
    Co.Leaves i P (useHost index) :=
  (Co.Leaves.modify _).bind fun _ => Co.Leaves.bind (fun _ => trivial) fun _ =>
    (Co.Leaves.ofExcept _).bind fun _ => Co.Leaves.modify _

/-- The walk leaves events of a failover. -/
theorem walk_leaves (start : Nat) (offsets : List Nat) :
    Co.Leaves i ofFailover (walk start offsets) := by
  induction offsets with
  | nil => exact (useHost_leaves start).bind fun _ => Co.Leaves.pure _
  | cons offset rest ih =>
      refine Co.Leaves.bind (fun _ => trivial) fun client => (useHost_leaves _).bind fun _ =>
        (answers_leaves true).bind fun there => ?_
      split_ifs
      · exact Co.Leaves.bind (fun _ => trivial) fun client => (Co.Leaves.ofExcept _).bind
          fun _ => currentHost_leaves.bind fun _ => Co.Leaves.pure _
      · exact ih

/-- The whole search leaves events of a failover. -/
theorem switchHost_leaves (fromHost : Option String) (verifyCurrent : Bool) :
    Co.Leaves i ofFailover (switchHost fromHost verifyCurrent) := by
  refine Co.Leaves.bind (fun _ => trivial) fun client => Co.Leaves.bind ?_ fun moved => ?_
  · unfold movedFrom
    split
    · exact Co.Leaves.pure _
    · exact currentHost_leaves.bind fun _ => Co.Leaves.pure _
  · split_ifs
    · exact currentHost_leaves.bind fun _ => Co.Leaves.pure _
    · refine Co.Leaves.bind ?_ fun stillThere => ?_
      · unfold stillAnswers
        split_ifs
        · exact answers_leaves false
        · exact Co.Leaves.pure _
      · split_ifs
        · exact currentHost_leaves.bind fun _ => Co.Leaves.pure _
        · exact Co.Leaves.bind (fun _ => trivial) fun _ => walk_leaves _ _

/-- A failover leaves its probes, its remarks and the use of the lock. -/
theorem failover_leaves (fromHost : Option String) (verifyCurrent : Bool) :
    Co.Leaves i ofFailover (failover fromHost verifyCurrent) :=
  Co.Leaves.bind ⟨trivial, trivial⟩ fun _ =>
    ((switchHost_leaves _ _).withLock trivial trivial).bind fun _ =>
      Co.Leaves.bind ⟨trivial, trivial⟩ fun _ => Co.Leaves.pure _

/-- {lit}`failover` leaves events of a failover where it is called for peers. -/
theorem failoverIfPeers_leaves (fromHost : Option String) (verifyCurrent : Bool) :
    Co.Leaves i ofFailover (failoverIfPeers fromHost verifyCurrent) := by
  refine Co.Leaves.bind (fun _ => trivial) fun client => ?_
  split_ifs
  · exact Co.Leaves.pure _
  · exact failover_leaves _ _

end Leaves

/-! ## Exceptions of the parts -/

/-- An exchange ends as the server and the library can make it end: the
exceptions of the package are raised by its own code only. -/
def Genuine (reply : Outcome) : Prop :=
  match reply with
  | .error e => e.isProxmoxError = false
  | .ok response =>
      (∀ e, response.text = .error e → e.isProxmoxError = false) ∧
        (∀ e, response.json = .error e → e.isProxmoxError = false)

/-- Not an answer of the API to a request. -/
abbrev NotRefusal (e : Exc) : Prop :=
  e.isProxmoxAPIError = false

/-- What a login raises of its own satisfies {lit}`P`. -/
structure LoginErrors (P : Exc → Prop) : Prop where
  lookup : ∀ e, e.isLookup = true → P e
  refusal : ∀ text, P (.proxmoxAuthError text)

/-- So does what an exchange raises, and reading its answer. -/
structure ExchangeErrors (P : Exc → Prop) (reply : Outcome) : Prop where
  error : ∀ e, reply = .error e → P e
  json : ∀ response e, reply = .ok response → response.json = .error e → P e

/-- A missing key is no refusal of the API. -/
theorem notRefusal_loginErrors : LoginErrors NotRefusal where
  lookup _ he := Exc.isProxmoxAPIError_of_not (Exc.isLookup_isProxmoxError he)
  refusal _ := rfl

/-- A genuine answer raises no refusal while a login reads it. -/
theorem Genuine.exchangeErrors {reply : Outcome} (h : Genuine reply) :
    ExchangeErrors NotRefusal reply where
  error e he := by
    subst he
    exact Exc.isProxmoxAPIError_of_not h
  json response e hreply he := by
    subst hreply
    exact Exc.isProxmoxAPIError_of_not (h.2 e he)

section Raises

variable {G : Exchange → Outcome → Prop} {P : Exc → Prop}

/-- Reading the ticket raises what a login may raise. -/
theorem ticketAuth_raises (hP : LoginErrors P) : Co.Raises G P ticketAuth := by
  refine Co.Raises.bind (fun _ => trivial) fun client => ?_
  cases client.auth with
  | ticket auth => exact trivial
  | token auth => exact hP.lookup _ rfl

/-- A missing key raises what a login may raise. -/
theorem getItem_raises (hP : LoginErrors P) (data : Json) (key : String) :
    Co.Raises G P (Co.ofExcept (data.getItem key) : Prog Json) :=
  Co.Raises.ofExcept fun _ he => hP.lookup _ (Json.getItem_raises he)

/-- Adopting the tokens raises what a login may raise. -/
theorem adoptTokens_raises (hP : LoginErrors P) (data : Json) :
    Co.Raises G P (adoptTokens data) :=
  (Co.Raises.modify _).bind fun _ => (getItem_raises hP data _).bind fun _ =>
    (Co.Raises.modify _).bind fun _ => (getItem_raises hP data _).bind fun _ =>
      Co.Raises.modify _

/-- The second factor raises what a login may raise. -/
theorem secondFactor_raises (hP : LoginErrors P) (hG : ∀ q r, G q r → ExchangeErrors P r)
    (otp : Option Bool) (otptype : Option String) (timeout : ℚ) :
    Co.Raises G P (secondFactor otp otptype timeout) := by
  refine (ticketAuth_raises hP).bind fun auth => Co.Raises.await_bind
    (fun e he => (hG _ _ he).error e rfl) fun response hr => ?_
  refine Co.Raises.bind (Co.Raises.ofExcept fun e he => (hG _ _ hr).json response e rfl he)
    fun body => Co.Raises.bind (Co.Raises.ofExcept fun e he =>
      hP.lookup _ (Json.dictGet_raises he)) fun data => ?_
  split_ifs
  · exact adoptTokens_raises hP data
  · exact Co.Raises.throw (hP.refusal _)

/-- A login raises what it raises of its own and what its exchanges do. -/
theorem getNewTokens_raises (hP : LoginErrors P) (hG : ∀ q r, G q r → ExchangeErrors P r)
    (password : Option String) (otp : Option Bool) (otptype : Option String) :
    Co.Raises G P (getNewTokens password otp otptype) := by
  refine (ticketAuth_raises hP).bind fun auth => Co.Raises.await_bind
    (fun e he => (hG _ _ he).error e rfl) fun response hr => ?_
  split_ifs
  · refine Co.Raises.bind (Co.Raises.ofExcept fun e he => (hG _ _ hr).json response e rfl he)
      fun body => (getItem_raises hP _ _).bind fun data =>
        (adoptTokens_raises hP data).bind fun _ => Co.Raises.bind ?_ fun _ =>
          Co.Raises.bind (Co.Raises.ofExcept fun e he =>
            hP.lookup _ (Json.dictGet_raises he)) fun needTfa => ?_
    · unfold adoptCapabilities
      split
      · exact Co.Raises.bind (Co.Raises.ofExcept fun e he =>
          hP.lookup _ (PVECapabilities.ofKwargs_raises he)) fun _ => Co.Raises.modify _
      · exact Co.Raises.pure _
    · split_ifs
      · exact secondFactor_raises hP hG _ _ _
      · exact Co.Raises.pure _
  · exact (ticketAuth_raises hP).bind fun _ => Co.Raises.throw (hP.refusal _)

/-- {lit}`relogin` raises what a login may raise. -/
theorem relogin_raises (hP : LoginErrors P) (hG : ∀ q r, G q r → ExchangeErrors P r) :
    Co.Raises G P relogin :=
  (Co.Raises.remark _).bind fun _ =>
    ((ticketAuth_raises hP).bind fun _ => getNewTokens_raises hP hG _ _ _).bind fun _ =>
      Co.Raises.remark _

/-- So does a renewal. -/
theorem checkAndRefresh_raises (hP : LoginErrors P) (hG : ∀ q r, G q r → ExchangeErrors P r) :
    Co.Raises G P checkAndRefresh := by
  refine Co.Raises.bind Co.Raises.state fun m => ?_
  split
  · exact Co.Raises.pure _
  · split_ifs
    · refine (getNewTokens_raises hP hG _ _ _).tryCatch fun err herr => ?_
      unfold refused
      split
      · exact relogin_raises hP hG
      · exact Co.Raises.throw herr
    · exact Co.Raises.pure _

end Raises

section Raises

/-- Naming the host in use raises no refusal. -/
theorem currentHost_raises {G : Exchange → Outcome → Prop} :
    Co.Raises G NotRefusal currentHost :=
  Co.Raises.bind (fun _ => trivial) fun _ => Co.Raises.ofExcept fun _ he =>
    notRefusal_loginErrors.lookup _ (ProxmoxVE.hostAt_raises he)

/-- A probe takes every refusal for an answer. -/
theorem answers_raises {G : Exchange → Outcome → Prop} (candidate : Bool) :
    Co.Raises G NotRefusal (answers candidate) := by
  refine Co.Raises.tryCatch (Co.Raises.anything _) fun err _ => ?_
  unfold silent
  split
  · exact currentHost_raises.bind fun _ => Co.Raises.pure _
  · split_ifs with h
    · exact currentHost_raises.bind fun _ => Co.Raises.pure _
    · refine Co.Raises.throw (Exc.isProxmoxAPIError_of_not ?_)
      simp only [Bool.or_eq_true, not_or, Bool.not_eq_true] at h
      exact h.1.1

/-- Moving the client raises no refusal. -/
theorem useHost_raises {G : Exchange → Outcome → Prop} (index : Nat) :
    Co.Raises G NotRefusal (useHost index) :=
  (Co.Raises.modify _).bind fun _ => Co.Raises.bind (fun _ => trivial) fun _ =>
    Co.Raises.bind (Co.Raises.ofExcept fun _ he =>
      notRefusal_loginErrors.lookup _ (ProxmoxVE.hostAt_raises he)) fun _ => Co.Raises.modify _

/-- The walk raises no refusal. -/
theorem walk_raises {G : Exchange → Outcome → Prop} (start : Nat) (offsets : List Nat) :
    Co.Raises G NotRefusal (walk start offsets) := by
  induction offsets with
  | nil => exact (useHost_raises start).bind fun _ => Co.Raises.pure _
  | cons offset rest ih =>
      refine Co.Raises.bind (fun _ => trivial) fun client => (useHost_raises _).bind fun _ =>
        (answers_raises true).bind fun there => ?_
      split_ifs
      · exact Co.Raises.bind (fun _ => trivial) fun client =>
          Co.Raises.bind (Co.Raises.ofExcept fun _ he =>
            notRefusal_loginErrors.lookup _ (ProxmoxVE.hostAt_raises he)) fun _ =>
              currentHost_raises.bind fun _ => Co.Raises.pure _
      · exact ih

/-- A failover takes every refusal for an answer. -/
theorem failoverIfPeers_raises {G : Exchange → Outcome → Prop} (fromHost : Option String)
    (verifyCurrent : Bool) :
    Co.Raises G NotRefusal (failoverIfPeers fromHost verifyCurrent) := by
  refine Co.Raises.bind (fun _ => trivial) fun client => ?_
  split_ifs
  · exact Co.Raises.pure _
  · refine (Co.Raises.remark _).bind fun _ => Co.Raises.bind (Co.Raises.withLock ?_) fun _ =>
      (Co.Raises.remark _).bind fun _ => Co.Raises.pure _
    refine Co.Raises.bind (fun _ => trivial) fun client => Co.Raises.bind ?_ fun moved => ?_
    · unfold movedFrom
      split
      · exact Co.Raises.pure _
      · exact currentHost_raises.bind fun _ => Co.Raises.pure _
    · split_ifs
      · exact currentHost_raises.bind fun _ => Co.Raises.pure _
      · refine Co.Raises.bind ?_ fun stillThere => ?_
        · unfold stillAnswers
          split_ifs
          · exact answers_raises false
          · exact Co.Raises.pure _
        · split_ifs
          · exact currentHost_raises.bind fun _ => Co.Raises.pure _
          · exact Co.Raises.bind (fun _ => trivial) fun _ => walk_raises _ _

end Raises

/-! ## The courses of a request -/

/-- What a request does first: renew the ticket, on another host if need be. -/
def renewalStage : Prog Unit :=
  tryCatch checkAndRefresh renewElsewhere

/-- One sending of the caller's request. -/
def send (method path : String) (jsonData params : Option Dict) : Prog Json :=
  requestOnce .request method path jsonData params none

/-- A request is a renewal, the name of the host in use, and a send with its recovery. -/
theorem request_eq (method path : String) (jsonData params : Option Dict) :
    request method path jsonData params = (do
      renewalStage
      let hostBefore ← currentHost
      tryCatch (send method path jsonData params)
        (recover method path jsonData params hostBefore)) :=
  rfl

/-- Where nobody answered the first sending, another host is looked for. -/
theorem recover_lost {e : Exc} (h : e.isLostHost = true) (method path : String)
    (jsonData params : Option Dict) (hostBefore : String) :
    recover method path jsonData params hostBefore e = (do
      let moved ← failoverIfPeers (some hostBefore) true
      if moved then send method path jsonData params else throw e) := by
  cases e <;> first | rfl | contradiction

/-- A renewal raises no refusal of the API. -/
theorem renewalStage_raises : Co.Raises (fun _ => Genuine) NotRefusal renewalStage := by
  have hrefresh : Co.Raises (fun _ => Genuine) NotRefusal checkAndRefresh :=
    checkAndRefresh_raises notRefusal_loginErrors fun _ _ => Genuine.exchangeErrors
  refine hrefresh.tryCatch fun err herr => ?_
  unfold renewElsewhere
  split_ifs
  · refine (failoverIfPeers_raises _ _).bind fun moved => ?_
    split_ifs
    · exact hrefresh
    · exact Co.Raises.throw herr
  · exact Co.Raises.throw herr

/-- A renewal stage leaves the events of logins and failovers. -/
theorem renewalStage_leaves {τ : Type} {i : τ} :
    Co.Leaves i (fun e => ofLogin e ∨ ofFailover e) renewalStage := by
  have hlogin : Co.Leaves i (fun e => ofLogin e ∨ ofFailover e) checkAndRefresh :=
    login_leaves.mono fun _ h => .inl h
  refine hlogin.tryCatch fun err => ?_
  unfold renewElsewhere
  split_ifs
  · refine ((failoverIfPeers_leaves _ _).mono fun _ h => .inr h).bind fun moved => ?_
    split_ifs
    · exact hlogin
    · exact Co.Leaves.throw _
  · exact Co.Leaves.throw _

section Keeps

variable {τ : Type} {E : Surroundings Machine Outcome} {i : τ}

/-- A send leaves the fixed part of the client alone. -/
theorem send_keepsFixed (hE : Quiet E) (method path : String)
    (jsonData params : Option Dict) :
    Keeps E i FixedFrame (send method path jsonData params) :=
  requestOnce_keepsFixed hE _ _ _ _ _ _

/-- A renewal leaves the fixed part of the client alone. -/
theorem renewalStage_keepsFixed (hE : Quiet E) : Keeps E i FixedFrame renewalStage :=
  (checkAndRefresh_keepsFixed hE).tryCatch (renewElsewhere_keepsFixed hE)

end Keeps

/-- The way one undisturbed request goes, and the ending it comes to.  A part
hands on the number of answers and the world it leaves. -/
inductive RequestCourse {τ : Type} (E : Surroundings Machine Outcome) (i : τ)
    (method path : String) (jsonData params : Option Dict) (n : Nat)
    (w : World τ Machine Exchange Outcome Remark) :
    Ending τ Machine Exchange Outcome Exc Remark Json → Prop where
  | notRenewed {e n₁ w₁} (hrenew : renewalStage.exec E i n w = ⟨.error e, n₁, w₁⟩) :
      RequestCourse E i method path jsonData params n w ⟨.error e, n₁, w₁⟩
  | hostless {e n₁ w₁} (hrenew : renewalStage.exec E i n w = ⟨.ok (), n₁, w₁⟩)
      (hhost : w₁.state.client.host = .error e) :
      RequestCourse E i method path jsonData params n w ⟨.error e, n₁, w₁⟩
  | answered {host v n₁ w₁ n₂ w₂} (hrenew : renewalStage.exec E i n w = ⟨.ok (), n₁, w₁⟩)
      (hhost : w₁.state.client.host = .ok host)
      (hsend : (send method path jsonData params).exec E i n₁ w₁ = ⟨.ok v, n₂, w₂⟩) :
      RequestCourse E i method path jsonData params n w ⟨.ok v, n₂, w₂⟩
  | failed {host e n₁ w₁ n₂ w₂} (hrenew : renewalStage.exec E i n w = ⟨.ok (), n₁, w₁⟩)
      (hhost : w₁.state.client.host = .ok host)
      (hsend : (send method path jsonData params).exec E i n₁ w₁ = ⟨.error e, n₂, w₂⟩)
      (hrefusal : ∀ message endpoint, e = .proxmoxAPIError 401 message endpoint →
        w₂.state.client.auth.hasRelogin = false)
      (hlost : e.isLostHost = false) :
      RequestCourse E i method path jsonData params n w ⟨.error e, n₂, w₂⟩
  | notLoggedIn {host message endpoint e n₁ w₁ n₂ w₂ n₃ w₃}
      (hrenew : renewalStage.exec E i n w = ⟨.ok (), n₁, w₁⟩)
      (hhost : w₁.state.client.host = .ok host)
      (hsend : (send method path jsonData params).exec E i n₁ w₁ =
        ⟨.error (.proxmoxAPIError 401 message endpoint), n₂, w₂⟩)
      (hpassword : w₂.state.client.auth.hasRelogin = true)
      (hlogin : relogin.exec E i n₂ w₂ = ⟨.error e, n₃, w₃⟩) :
      RequestCourse E i method path jsonData params n w ⟨.error e, n₃, w₃⟩
  | repeatedAfterLogin {host message endpoint n₁ w₁ n₂ w₂ n₃ w₃}
      (hrenew : renewalStage.exec E i n w = ⟨.ok (), n₁, w₁⟩)
      (hhost : w₁.state.client.host = .ok host)
      (hsend : (send method path jsonData params).exec E i n₁ w₁ =
        ⟨.error (.proxmoxAPIError 401 message endpoint), n₂, w₂⟩)
      (hpassword : w₂.state.client.auth.hasRelogin = true)
      (hlogin : relogin.exec E i n₂ w₂ = ⟨.ok (), n₃, w₃⟩) :
      RequestCourse E i method path jsonData params n w
        ((send method path jsonData params).exec E i n₃ w₃)
  | stranded {host e e' n₁ w₁ n₂ w₂ n₃ w₃}
      (hrenew : renewalStage.exec E i n w = ⟨.ok (), n₁, w₁⟩)
      (hhost : w₁.state.client.host = .ok host)
      (hsend : (send method path jsonData params).exec E i n₁ w₁ = ⟨.error e, n₂, w₂⟩)
      (hlost : e.isLostHost = true)
      (hmove : (failoverIfPeers (some host) true).exec E i n₂ w₂ = ⟨.error e', n₃, w₃⟩) :
      RequestCourse E i method path jsonData params n w ⟨.error e', n₃, w₃⟩
  | stayed {host e n₁ w₁ n₂ w₂ n₃ w₃}
      (hrenew : renewalStage.exec E i n w = ⟨.ok (), n₁, w₁⟩)
      (hhost : w₁.state.client.host = .ok host)
      (hsend : (send method path jsonData params).exec E i n₁ w₁ = ⟨.error e, n₂, w₂⟩)
      (hlost : e.isLostHost = true)
      (hmove : (failoverIfPeers (some host) true).exec E i n₂ w₂ = ⟨.ok false, n₃, w₃⟩) :
      RequestCourse E i method path jsonData params n w ⟨.error e, n₃, w₃⟩
  | repeatedElsewhere {host e n₁ w₁ n₂ w₂ n₃ w₃}
      (hrenew : renewalStage.exec E i n w = ⟨.ok (), n₁, w₁⟩)
      (hhost : w₁.state.client.host = .ok host)
      (hsend : (send method path jsonData params).exec E i n₁ w₁ = ⟨.error e, n₂, w₂⟩)
      (hlost : e.isLostHost = true)
      (hmove : (failoverIfPeers (some host) true).exec E i n₂ w₂ = ⟨.ok true, n₃, w₃⟩) :
      RequestCourse E i method path jsonData params n w
        ((send method path jsonData params).exec E i n₃ w₃)

section Course

variable {τ : Type} {E : Surroundings Machine Outcome} {i : τ} {method path : String}
  {jsonData params : Option Dict} {n : Nat} {w : World τ Machine Exchange Outcome Remark}

/-- Once the ticket is renewed and the host read, what is left is the first
sending with its clauses. -/
theorem exec_request_renewed {host : String} {n₁ : Nat}
    {w₁ : World τ Machine Exchange Outcome Remark}
    (hrenew : renewalStage.exec E i n w = ⟨.ok (), n₁, w₁⟩)
    (hhost : w₁.state.client.host = .ok host) :
    (request method path jsonData params).exec E i n w =
      (tryCatch (send method path jsonData params)
        (recover method path jsonData params host)).exec E i n₁ w₁ := by
  have hread : currentHost.exec E i n₁ w₁ = ⟨.ok host, n₁, w₁⟩ := by
    rw [exec_currentHost, hhost]
  rw [request_eq, Co.exec_bind_ok hrenew, Co.exec_bind_ok hread]

/-- A request that loses its host ends as the search for another one does. -/
theorem exec_request_lost {host : String} {e : Exc} {n₁ n₂ : Nat}
    {w₁ w₂ : World τ Machine Exchange Outcome Remark}
    (hrenew : renewalStage.exec E i n w = ⟨.ok (), n₁, w₁⟩)
    (hhost : w₁.state.client.host = .ok host)
    (hsend : (send method path jsonData params).exec E i n₁ w₁ = ⟨.error e, n₂, w₂⟩)
    (hlost : e.isLostHost = true) :
    (request method path jsonData params).exec E i n w =
      (do
        let moved ← failoverIfPeers (some host) true
        if moved then send method path jsonData params else throw e : Prog Json).exec
          E i n₂ w₂ := by
  rw [exec_request_renewed hrenew hhost, Co.exec_tryCatch_error hsend, recover_lost hlost]

/-- Where the first sending was answered 401, a password client logs in again. -/
theorem exec_request_unauthorized {host message endpoint : String} {n₁ n₂ : Nat}
    {w₁ w₂ : World τ Machine Exchange Outcome Remark}
    (hrenew : renewalStage.exec E i n w = ⟨.ok (), n₁, w₁⟩)
    (hhost : w₁.state.client.host = .ok host)
    (hsend : (send method path jsonData params).exec E i n₁ w₁ =
      ⟨.error (.proxmoxAPIError 401 message endpoint), n₂, w₂⟩)
    (hpassword : w₂.state.client.auth.hasRelogin = true) :
    (request method path jsonData params).exec E i n w =
      (relogin >>= fun _ => send method path jsonData params).exec E i n₂ w₂ := by
  rw [exec_request_renewed hrenew hhost, Co.exec_tryCatch_error hsend]
  unfold recover
  rw [Co.exec_bind, exec_self]
  simp only [hpassword]
  rfl

/-- Any other failure of the first sending is the request's. -/
theorem exec_request_failed {host : String} {e : Exc} {n₁ n₂ : Nat}
    {w₁ w₂ : World τ Machine Exchange Outcome Remark}
    (hrenew : renewalStage.exec E i n w = ⟨.ok (), n₁, w₁⟩)
    (hhost : w₁.state.client.host = .ok host)
    (hsend : (send method path jsonData params).exec E i n₁ w₁ = ⟨.error e, n₂, w₂⟩)
    (hrefusal : ∀ message endpoint, e = .proxmoxAPIError 401 message endpoint →
      w₂.state.client.auth.hasRelogin = false)
    (hlost : e.isLostHost = false) :
    (request method path jsonData params).exec E i n w = ⟨.error e, n₂, w₂⟩ := by
  rw [exec_request_renewed hrenew hhost, Co.exec_tryCatch_error hsend]
  cases e with
  | proxmoxAPIError status message endpoint =>
      unfold recover
      rw [Co.exec_bind, exec_self]
      simp only
      rw [if_pos]
      · rfl
      · by_cases hstatus : status = 401
        · subst hstatus
          exact .inr (hrefusal message endpoint rfl)
        · exact .inl hstatus
  | clientConnectionError text => contradiction
  | timeoutError text => contradiction
  | _ => rfl

/-- Every run of a request follows one of the courses. -/
theorem request_course :
    RequestCourse E i method path jsonData params n w
      ((request method path jsonData params).exec E i n w) := by
  rcases hrenew : renewalStage.exec E i n w with ⟨e | _, n₁, w₁⟩
  · rw [request_eq, Co.exec_bind_error hrenew]
    exact .notRenewed hrenew
  rcases hhost : w₁.state.client.host with e | host
  · have hread : currentHost.exec E i n₁ w₁ = ⟨.error e, n₁, w₁⟩ := by
      rw [exec_currentHost, hhost]
    rw [request_eq, Co.exec_bind_ok hrenew, Co.exec_bind_error hread]
    exact .hostless hrenew hhost
  rcases hsend : (send method path jsonData params).exec E i n₁ w₁ with ⟨e | v, n₂, w₂⟩
  · by_cases hlost : e.isLostHost = true
    · rw [exec_request_lost hrenew hhost hsend hlost]
      rcases hmove : (failoverIfPeers (some host) true).exec E i n₂ w₂ with
        ⟨e' | moved, n₃, w₃⟩
      · rw [Co.exec_bind_error hmove]
        exact .stranded hrenew hhost hsend hlost hmove
      · rw [Co.exec_bind_ok hmove]
        cases moved with
        | true => exact .repeatedElsewhere hrenew hhost hsend hlost hmove
        | false => exact .stayed hrenew hhost hsend hlost hmove
    · have hlost : e.isLostHost = false := by simpa using hlost
      by_cases hrefused : (∃ message endpoint, e = .proxmoxAPIError 401 message endpoint) ∧
          w₂.state.client.auth.hasRelogin = true
      · rcases hrefused with ⟨⟨message, endpoint, rfl⟩, hpassword⟩
        rw [exec_request_unauthorized hrenew hhost hsend hpassword]
        rcases hlogin : relogin.exec E i n₂ w₂ with ⟨e | _, n₃, w₃⟩
        · rw [Co.exec_bind_error hlogin]
          exact .notLoggedIn hrenew hhost hsend hpassword hlogin
        · rw [Co.exec_bind_ok hlogin]
          exact .repeatedAfterLogin hrenew hhost hsend hpassword hlogin
      · have hrefusal : ∀ message endpoint, e = .proxmoxAPIError 401 message endpoint →
            w₂.state.client.auth.hasRelogin = false := by
          intro message endpoint he
          by_contra hpassword
          exact hrefused ⟨⟨message, endpoint, he⟩, by simpa using hpassword⟩
        rw [exec_request_failed hrenew hhost hsend hrefusal hlost]
        exact .failed hrenew hhost hsend hrefusal hlost
  · rw [exec_request_renewed hrenew hhost, Co.exec_tryCatch_ok hsend]
    exact .answered hrenew hhost hsend

end Course

end AioProxmox
