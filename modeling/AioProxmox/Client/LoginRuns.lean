import AioProxmox.Client.Runs

/-!
# Client - the login conversation

What one run of {lit}`_get_new_tokens` does: an accepted first answer either
lacks something it needs, or is adopted, and where it asks for a second factor
the conversation goes on with the half-made login in place.

Main results:

- Theorems {lit}`exec_acceptLogin_unreadable`, {lit}`exec_acceptLogin_unusable` and
  {lit}`exec_acceptLogin_usable`: the ends of a first answer.
- Theorem {lit}`login_allOrNothing_iff`: when a login is all or nothing.
-/

namespace AioProxmox

open Coroutine

/-! ## What an answer carries -/

/-- What stands under {lit}`data` in a JSON body. -/
def bodyData (response : Response) : Option Json :=
  match response.json with
  | .ok body => body.field? "data"
  | .error _ => none

/-- What an accepted first answer of a login carries. -/
def acceptedData (reply : Outcome) : Option Json :=
  match reply with
  | .ok response => if response.status = 200 then bodyData response else none
  | .error _ => none

/-- What any answer carries. -/
def answeredData (reply : Outcome) : Option Json :=
  match reply with
  | .ok response => bodyData response
  | .error _ => none

/-- What is accepted was answered. -/
theorem answeredData_of_accepted {reply : Outcome} {data : Json}
    (h : acceptedData reply = some data) : answeredData reply = some data := by
  cases reply with
  | error e => contradiction
  | ok response =>
      simp only [acceptedData] at h
      split_ifs at h
      exact h

/-- {lit}`response_data.get("NeedTFA") is not None`. -/
def needsTfa (data : Json) : Bool :=
  ((data.field? "NeedTFA").getD .null).isSome

/-- Whether the capabilities, where there are any, can be built. -/
def capabilitiesFit (data : Json) : Bool :=
  match data.field? "cap" with
  | some cap => (PVECapabilities.ofKwargs cap).isOk
  | none => true

/-- Whether a first answer has all that is read from it. -/
def usable (data : Json) : Bool :=
  (data.field? "ticket").isSome && (data.field? "CSRFPreventionToken").isSome &&
    capabilitiesFit data

/-- What can be used holds both tokens and capabilities that fit. -/
theorem usable_eq_true {data : Json} (h : usable data = true) :
    ∃ ticket csrf, data.field? "ticket" = some ticket ∧
      data.field? "CSRFPreventionToken" = some csrf ∧ capabilitiesFit data = true := by
  simp only [usable, Bool.and_eq_true, Option.isSome_iff_exists] at h
  rcases h with ⟨⟨⟨ticket, ht⟩, ⟨csrf, hc⟩⟩, hfit⟩
  exact ⟨ticket, csrf, ht, hc, hfit⟩

/-! ## The tokens of a client -/

/-- What a login acquires. -/
structure Tokens where
  pveAuthTicket : Json
  csrfPreventionToken : Json
  birthTime : ℚ
  capabilities : Option PVECapabilities

/-- The tokens of an authentication. -/
def ProxmoxHTTPAuth.tokens (auth : ProxmoxHTTPAuth) : Tokens where
  pveAuthTicket := auth.pveAuthTicket
  csrfPreventionToken := auth.csrfPreventionToken
  birthTime := auth.birthTime
  capabilities := auth.capabilities

/-- The tokens of a password client. -/
def Machine.tokens (m : Machine) : Option Tokens :=
  match m.client.auth with
  | .ticket auth => some auth.tokens
  | .token _ => none

/-- The machine with another ticket authentication. -/
def Machine.withTicket (m : Machine) (auth : ProxmoxHTTPAuth) : Machine :=
  { m with client.auth := .ticket auth }

@[simp]
theorem Machine.withTicket_auth (m : Machine) (auth : ProxmoxHTTPAuth) :
    (m.withTicket auth).client.auth = .ticket auth :=
  rfl

@[simp]
theorem Machine.withTicket_monotonic (m : Machine) (auth : ProxmoxHTTPAuth) :
    (m.withTicket auth).monotonic = m.monotonic :=
  rfl

/-- Only the last authentication counts. -/
@[simp]
theorem Machine.withTicket_withTicket (m : Machine) (auth auth' : ProxmoxHTTPAuth) :
    (m.withTicket auth).withTicket auth' = m.withTicket auth' :=
  rfl

@[simp]
theorem Machine.tokens_withTicket (m : Machine) (auth : ProxmoxHTTPAuth) :
    (m.withTicket auth).tokens = some auth.tokens :=
  rfl

/-- Mapping the ticket is setting it. -/
theorem Machine.mapTicket_eq {m : Machine} {auth : ProxmoxHTTPAuth}
    (h : m.client.auth = .ticket auth) (f : ProxmoxHTTPAuth → ProxmoxHTTPAuth) :
    m.mapTicket f = m.withTicket (f auth) := by
  unfold mapTicket
  rw [h]
  rfl

/-- To set the ticket that is there changes nothing. -/
theorem Machine.withTicket_self {m : Machine} {auth : ProxmoxHTTPAuth}
    (h : m.client.auth = .ticket auth) : m.withTicket auth = m := by
  rcases m with ⟨client, clock⟩
  rcases client
  subst h
  rfl

/-- The tokens of a machine are those of its ticket. -/
theorem Machine.tokens_eq {m : Machine} {auth : ProxmoxHTTPAuth}
    (h : m.client.auth = .ticket auth) : m.tokens = some auth.tokens := by
  unfold tokens
  rw [h]

/-! ## Adopting an answer -/

/-- The capabilities after an answer, those before it where it has none. -/
def adoptedCapabilities (data : Json) (before : Option PVECapabilities) :
    Option PVECapabilities :=
  match data.field? "cap" with
  | some cap =>
      match PVECapabilities.ofKwargs cap with
      | .ok capabilities => some capabilities
      | .error _ => before
  | none => before

namespace ProxmoxHTTPAuth

/-- The three assignments, as far as the answer lets them come. -/
def assigned (auth : ProxmoxHTTPAuth) (clock : ℚ) (data : Json) : ProxmoxHTTPAuth :=
  match data.field? "ticket", data.field? "CSRFPreventionToken" with
  | none, _ => { auth with birthTime := clock }
  | some ticket, none => { auth with birthTime := clock, pveAuthTicket := ticket }
  | some ticket, some csrf =>
      { auth with birthTime := clock, pveAuthTicket := ticket, csrfPreventionToken := csrf }

/-- The assignments from a first answer that has all it needs. -/
def adopted (auth : ProxmoxHTTPAuth) (clock : ℚ) (data : Json) : ProxmoxHTTPAuth :=
  { auth.assigned clock data with
    capabilities := adoptedCapabilities data (auth.assigned clock data).capabilities }

/-- What an answer would put in place is there already. -/
structure Coincides (auth : ProxmoxHTTPAuth) (clock : ℚ) (data : Json) : Prop where
  birthTime : auth.birthTime = clock
  ticket : ∀ ticket, data.field? "ticket" = some ticket → auth.pveAuthTicket = ticket
  csrf : ∀ ticket csrf, data.field? "ticket" = some ticket →
    data.field? "CSRFPreventionToken" = some csrf → auth.csrfPreventionToken = csrf

/-- Assigning what is there already is all that goes unnoticed. -/
theorem tokens_assigned_iff (auth : ProxmoxHTTPAuth) (clock : ℚ) (data : Json) :
    (auth.assigned clock data).tokens = auth.tokens ↔ auth.Coincides clock data := by
  unfold assigned
  constructor
  · intro h
    cases ht : data.field? "ticket" with
    | none =>
        simp only [ht, tokens, Tokens.mk.injEq] at h
        exact ⟨h.2.2.1.symm, by simp [ht], by simp [ht]⟩
    | some ticket =>
        cases hc : data.field? "CSRFPreventionToken" with
        | none =>
            simp only [ht, hc, tokens, Tokens.mk.injEq] at h
            exact ⟨h.2.2.1.symm, by simp [ht, h.1], by simp [hc]⟩
        | some csrf =>
            simp only [ht, hc, tokens, Tokens.mk.injEq] at h
            exact ⟨h.2.2.1.symm, by simp [ht, h.1], by simp [ht, hc, h.2.1]⟩
  · rintro ⟨hb, ht, hc⟩
    cases hticket : data.field? "ticket" with
    | none => simp [tokens, hb]
    | some ticket =>
        cases hcsrf : data.field? "CSRFPreventionToken" with
        | none => simp [tokens, hb, ht ticket hticket]
        | some csrf => simp [tokens, hb, ht ticket hticket, hc ticket csrf hticket hcsrf]

/-- The two tokens an adopted answer carried. -/
theorem assigned_eq (auth : ProxmoxHTTPAuth) (clock : ℚ) {data ticket csrf : Json}
    (ht : data.field? "ticket" = some ticket)
    (hc : data.field? "CSRFPreventionToken" = some csrf) :
    auth.assigned clock data =
      { auth with
        birthTime := clock, pveAuthTicket := ticket, csrfPreventionToken := csrf } := by
  unfold assigned
  rw [ht, hc]

end ProxmoxHTTPAuth

/-- How adopting an answer ends: with the first of its two lookups that fails. -/
def adoptResult (data : Json) : Except Exc Unit := do
  let _ ← data.getItem "ticket"
  let _ ← data.getItem "CSRFPreventionToken"
  return ()

/-- With both keys there the tokens are adopted. -/
theorem adoptResult_eq_ok_of {data ticket csrf : Json}
    (ht : data.field? "ticket" = some ticket)
    (hc : data.field? "CSRFPreventionToken" = some csrf) : adoptResult data = .ok () := by
  rw [adoptResult, (Json.getItem_eq_ok_iff data ticket "ticket").mpr ht,
    (Json.getItem_eq_ok_iff data csrf "CSRFPreventionToken").mpr hc]
  rfl

/-- Where the tokens are adopted both keys were there. -/
theorem adoptResult_eq_ok {data : Json} (h : adoptResult data = .ok ()) :
    ∃ ticket csrf, data.field? "ticket" = some ticket ∧
      data.field? "CSRFPreventionToken" = some csrf := by
  unfold adoptResult at h
  rcases ht : data.getItem "ticket" with e | ticket
  · rw [ht] at h
    contradiction
  · rcases hc : data.getItem "CSRFPreventionToken" with e | csrf
    · rw [ht, hc] at h
      contradiction
    · exact ⟨ticket, csrf, (Json.getItem_eq_ok_iff _ _ _).mp ht,
        (Json.getItem_eq_ok_iff _ _ _).mp hc⟩

section Exec

variable {τ : Type} {E : Surroundings Machine Outcome} {i : τ}

/-- Reading the ticket ends at once. -/
theorem exec_ticketAuth {n : Nat} {w : World τ Machine Exchange Outcome Remark}
    {auth : ProxmoxHTTPAuth} (h : w.state.client.auth = .ticket auth) :
    ticketAuth.exec E i n w = ⟨.ok auth, n, w⟩ := by
  rw [ticketAuth, Co.exec_bind, exec_self]
  simp only [h, Co.exec_pure]

/-- Adopting an answer changes the tokens it has, up to the first one missing. -/
theorem exec_adoptTokens {n : Nat} {w : World τ Machine Exchange Outcome Remark}
    {auth : ProxmoxHTTPAuth} (h : w.state.client.auth = .ticket auth) (data : Json) :
    (adoptTokens data).exec E i n w =
      ⟨adoptResult data, n,
        { w with state := w.state.withTicket (auth.assigned w.state.monotonic data) }⟩ := by
  have hagain : ∀ auth' f, (w.state.withTicket auth').mapTicket f =
      w.state.withTicket (f auth') := fun auth' f => Machine.mapTicket_eq rfl f
  rcases hticket : data.getItem "ticket" with e | ticket
  · have hfield : data.field? "ticket" = none := by
      rcases hf : data.field? "ticket" with _ | v
      · rfl
      · rw [(Json.getItem_eq_ok_iff data v "ticket").mpr hf] at hticket
        contradiction
    have hresult : adoptResult data = .error e := by
      rw [adoptResult, hticket]
      rfl
    simp [adoptTokens, hresult, hticket, hfield, Machine.mapTicket_eq h,
      ProxmoxHTTPAuth.assigned]
  · have hfield := (Json.getItem_eq_ok_iff data ticket "ticket").mp hticket
    rcases hcsrf : data.getItem "CSRFPreventionToken" with e | csrf
    · have hnone : data.field? "CSRFPreventionToken" = none := by
        rcases hf : data.field? "CSRFPreventionToken" with _ | v
        · rfl
        · rw [(Json.getItem_eq_ok_iff data v "CSRFPreventionToken").mpr hf] at hcsrf
          contradiction
      have hresult : adoptResult data = .error e := by
        rw [adoptResult, hticket, hcsrf]
        rfl
      simp [adoptTokens, hresult, hticket, hcsrf, hfield, hnone, Machine.mapTicket_eq h,
        hagain, ProxmoxHTTPAuth.assigned]
    · have hsome := (Json.getItem_eq_ok_iff data csrf "CSRFPreventionToken").mp hcsrf
      have hresult : adoptResult data = .ok () := by
        rw [adoptResult, hticket, hcsrf]
        rfl
      simp [adoptTokens, hresult, hticket, hcsrf, hfield, hsome, Machine.mapTicket_eq h,
        hagain, ProxmoxHTTPAuth.assigned]

/-- Capabilities that can be built are put in place. -/
theorem exec_adoptCapabilities {n : Nat} {w : World τ Machine Exchange Outcome Remark}
    {auth : ProxmoxHTTPAuth} (h : w.state.client.auth = .ticket auth) {data : Json}
    (hfit : capabilitiesFit data = true) :
    (adoptCapabilities data).exec E i n w =
      ⟨.ok (), n, { w with state := w.state.withTicket { auth with
        capabilities := adoptedCapabilities data auth.capabilities } }⟩ := by
  unfold adoptCapabilities adoptedCapabilities
  unfold capabilitiesFit at hfit
  rcases hcap : data.field? "cap" with _ | cap
  · have hsame : w.state.withTicket auth = w.state := Machine.withTicket_self h
    simp only [Co.exec_pure, hsame]
  · rcases hbuilt : PVECapabilities.ofKwargs cap with e | capabilities
    · rw [hcap] at hfit
      simp only [hbuilt] at hfit
      contradiction
    · simp only [Co.exec_bind, Co.exec_ofExcept, Co.exec_modify, hbuilt, Machine.mapTicket_eq h]

/-- Capabilities that cannot be built raise, and change nothing. -/
theorem exec_adoptCapabilities_error {n : Nat} {w : World τ Machine Exchange Outcome Remark}
    {data : Json} (hfit : capabilitiesFit data = false) :
    ∃ e, (adoptCapabilities data).exec E i n w = ⟨.error e, n, w⟩ := by
  unfold adoptCapabilities
  unfold capabilitiesFit at hfit
  rcases hcap : data.field? "cap" with _ | cap
  · rw [hcap] at hfit
    contradiction
  · rcases hbuilt : PVECapabilities.ofKwargs cap with e | capabilities
    · exact ⟨e, by simp only [Co.exec_bind, Co.exec_ofExcept, hbuilt]⟩
    · rw [hcap] at hfit
      simp only [hbuilt] at hfit
      contradiction

/-- Reading the ticket suspends nowhere. -/
@[simp]
theorem stops_ticketAuth (n : Nat) (m : Machine) : ticketAuth.stops E n m = [] := by
  unfold ticketAuth
  refine Co.stops_bind_nil (fun n s => rfl) (fun client n s => ?_) n m
  cases client.auth <;> rfl

/-- A post suspends once. -/
@[simp]
theorem stops_postTicket (purpose : Purpose) (auth : ProxmoxHTTPAuth) (timeout : ℚ)
    (data : Dict) (n : Nat) (m : Machine) :
    (postTicket purpose auth timeout data).stops E n m = [m] :=
  rfl

/-- Adopting an answer is never suspended. -/
theorem stops_adoptTokens (data : Json) (n : Nat) (m : Machine) :
    (adoptTokens data).stops E n m = [] := by
  unfold adoptTokens
  refine Co.stops_bind_nil (fun n s => rfl) (fun _ => ?_) n m
  refine Co.stops_bind_nil (fun n s => rfl) fun ticket => ?_
  refine Co.stops_bind_nil (fun n s => rfl) fun _ => ?_
  exact Co.stops_bind_nil (fun n s => rfl) fun csrf n s => rfl

/-- Nor is adopting its capabilities. -/
theorem stops_adoptCapabilities (data : Json) (n : Nat) (m : Machine) :
    (adoptCapabilities data).stops E n m = [] := by
  unfold adoptCapabilities
  cases data.field? "cap" with
  | none => rfl
  | some cap => exact Co.stops_bind_nil (fun n s => rfl) (fun capabilities n s => rfl) n m

/-! ## The ends of a first answer -/

/-- An answer without anything to adopt raises, and changes nothing. -/
theorem exec_acceptLogin_unreadable {n : Nat} {w : World τ Machine Exchange Outcome Remark}
    (otp : Option Bool) (otptype : Option String) (timeout : ℚ) {response : Response}
    (hbody : bodyData response = none) :
    (∃ e, (acceptLogin otp otptype timeout response).exec E i n w = ⟨.error e, n, w⟩) ∧
      (acceptLogin otp otptype timeout response).stops E n w.state = [] := by
  unfold bodyData at hbody
  rcases hjson : response.json with e | body
  · have hread : (Co.ofExcept response.json : Prog Json).exec E i n w = ⟨.error e, n, w⟩ := by
      rw [Co.exec_ofExcept, hjson]
    exact ⟨⟨e, Co.exec_bind_error hread _⟩, Co.stops_bind_error hread _⟩
  · have hread : (Co.ofExcept response.json : Prog Json).exec E i n w = ⟨.ok body, n, w⟩ := by
      rw [Co.exec_ofExcept, hjson]
    rcases hdata : body.getItem "data" with e | data
    · have hlook : (Co.ofExcept (body.getItem "data") : Prog Json).exec E i n w =
          ⟨.error e, n, w⟩ := by
        rw [Co.exec_ofExcept, hdata]
      unfold acceptLogin
      rw [Co.exec_bind_ok hread, Co.stops_bind_ok hread]
      exact ⟨⟨e, Co.exec_bind_error hlook _⟩, Co.stops_bind_error hlook _⟩
    · rw [hjson] at hbody
      simp only [(Json.getItem_eq_ok_iff body data "data").mp hdata] at hbody
      contradiction

/-- The data of a body is what stands under its key. -/
theorem bodyData_eq_some {response : Response} {data : Json}
    (h : bodyData response = some data) :
    ∃ body, response.json = .ok body ∧ body.getItem "data" = .ok data := by
  unfold bodyData at h
  rcases hjson : response.json with e | body
  · rw [hjson] at h
    contradiction
  · rw [hjson] at h
    exact ⟨body, rfl, (Json.getItem_eq_ok_iff body data "data").mpr h⟩

/-- What is done with an answer whose data can be looked up. -/
theorem acceptLogin_eq {response : Response} {data : Json} (hbody : bodyData response = some data)
    (otp : Option Bool) (otptype : Option String) (timeout : ℚ) :
    acceptLogin otp otptype timeout response = (do
      adoptTokens data
      adoptCapabilities data
      let needTfa ← Co.ofExcept (data.dictGet "NeedTFA")
      if needTfa.isSome then secondFactor otp otptype timeout else pure ()) := by
  rcases bodyData_eq_some hbody with ⟨body, hjson, hdata⟩
  unfold acceptLogin
  rw [hjson]
  change (Co.ofExcept (body.getItem "data") >>= _ : Prog Unit) = _
  rw [hdata]
  rfl

/-- An answer that lacks something raises with what it had in place. -/
theorem exec_acceptLogin_unusable {n : Nat} {w : World τ Machine Exchange Outcome Remark}
    {auth : ProxmoxHTTPAuth} (h : w.state.client.auth = .ticket auth)
    (otp : Option Bool) (otptype : Option String) (timeout : ℚ) {response : Response}
    {data : Json} (hbody : bodyData response = some data) (hnot : usable data = false) :
    (∃ e, (acceptLogin otp otptype timeout response).exec E i n w = ⟨.error e, n,
        { w with state := w.state.withTicket (auth.assigned w.state.monotonic data) }⟩) ∧
      (acceptLogin otp otptype timeout response).stops E n w.state = [] := by
  have hadopt := exec_adoptTokens (E := E) (i := i) (n := n) h data
  rw [acceptLogin_eq hbody]
  rcases hresult : adoptResult data with e | _
  · rw [hresult] at hadopt
    rw [Co.exec_bind_error hadopt, Co.stops_bind_error hadopt, stops_adoptTokens]
    exact ⟨⟨e, rfl⟩, rfl⟩
  · rw [hresult] at hadopt
    have hfit : capabilitiesFit data = false := by
      rcases adoptResult_eq_ok hresult with ⟨ticket, csrf, ht, hc⟩
      simpa [usable, ht, hc] using hnot
    rcases exec_adoptCapabilities_error (E := E) (i := i) (n := n)
      (w := { w with state := w.state.withTicket (auth.assigned w.state.monotonic data) })
      hfit with ⟨e, hcap⟩
    rw [Co.exec_bind_ok hadopt, Co.stops_bind_ok hadopt, Co.exec_bind_error hcap,
      Co.stops_bind_error hcap, stops_adoptTokens, stops_adoptCapabilities]
    exact ⟨⟨e, rfl⟩, rfl⟩

/-- An answer that has everything is adopted, and that is all, unless it asks for
a second factor. -/
theorem exec_acceptLogin_usable {n : Nat} {w : World τ Machine Exchange Outcome Remark}
    {auth : ProxmoxHTTPAuth} (h : w.state.client.auth = .ticket auth)
    (otp : Option Bool) (otptype : Option String) (timeout : ℚ) {response : Response}
    {data : Json} (hbody : bodyData response = some data) (husable : usable data = true) :
    let w' := { w with state := w.state.withTicket (auth.adopted w.state.monotonic data) }
    let rest : Prog Unit :=
      if needsTfa data then secondFactor otp otptype timeout else pure ()
    (acceptLogin otp otptype timeout response).exec E i n w = rest.exec E i n w' ∧
      (acceptLogin otp otptype timeout response).stops E n w.state =
        rest.stops E n w'.state := by
  intro w' rest
  rcases usable_eq_true husable with ⟨ticket, csrf, ht, hc, hfit⟩
  have hadopt := exec_adoptTokens (E := E) (i := i) (n := n) h data
  rw [adoptResult_eq_ok_of ht hc] at hadopt
  have hcap := exec_adoptCapabilities (E := E) (i := i) (n := n)
    (w := { w with state := w.state.withTicket (auth.assigned w.state.monotonic data) })
    rfl hfit
  have hneed : (Co.ofExcept (data.dictGet "NeedTFA") : Prog Json).exec E i n w' =
      ⟨.ok ((data.field? "NeedTFA").getD .null), n, w'⟩ := by
    rw [Co.exec_ofExcept, Json.dictGet_eq_ok ht]
  rw [acceptLogin_eq hbody, Co.exec_bind_ok hadopt, Co.stops_bind_ok hadopt,
    Co.exec_bind_ok hcap, Co.stops_bind_ok hcap, stops_adoptTokens, stops_adoptCapabilities]
  simp only [List.nil_append]
  exact ⟨Co.exec_bind_ok hneed _, Co.stops_bind_ok hneed _⟩

/-! ## The conversation -/

/-- The first post of a login. -/
def firstPost (password : Option String) (auth : ProxmoxHTTPAuth) : Exchange :=
  ticketExchange (.login password) auth auth.timeout (loginData password auth)

/-- The second post of a login. -/
def secondPost (otp : Option Bool) (otptype : Option String) (timeout : ℚ)
    (auth : ProxmoxHTTPAuth) : Exchange :=
  ticketExchange .secondFactor auth timeout (otpData otp otptype auth)

/-- A login whose first answer is not accepted raises, and changes nothing. -/
theorem exec_getNewTokens_rejected (hE : Quiet E) {n : Nat}
    {w : World τ Machine Exchange Outcome Remark} {auth : ProxmoxHTTPAuth}
    (h : w.state.client.auth = .ticket auth) (password : Option String) (otp : Option Bool)
    (otptype : Option String) (hreply : acceptedData (E.reply n) = none) :
    (∃ e, (getNewTokens password otp otptype).exec E i n w =
        ⟨.error e, n + 1, exchanged E i (firstPost password auth) n w⟩) ∧
      (getNewTokens password otp otptype).stops E n w.state = [w.state] := by
  have hauth := exec_ticketAuth (E := E) (i := i) (n := n) h
  have hlater : (exchanged E i (firstPost password auth) n w).state.client.auth =
      .ticket auth := by
    rw [← h]
    exact congrArg ProxmoxVE.auth (hE n w.state)
  have hpost : (postTicket (.login password) auth auth.timeout (loginData password auth)).exec
      E i n w = ⟨E.reply n, n + 1, exchanged E i (firstPost password auth) n w⟩ := rfl
  unfold getNewTokens
  rw [Co.exec_bind_ok hauth, Co.stops_bind_ok hauth]
  rcases hr : E.reply n with e | response
  · rw [hr] at hpost
    rw [Co.exec_bind_error hpost, Co.stops_bind_error hpost, stops_ticketAuth]
    exact ⟨⟨e, rfl⟩, rfl⟩
  · rw [hr] at hpost hreply
    rw [Co.exec_bind_ok hpost, Co.stops_bind_ok hpost]
    by_cases hstatus : response.status = 200
    · simp only [acceptedData, hstatus, if_true] at hreply
      rcases exec_acceptLogin_unreadable (E := E) (i := i) (n := n + 1)
        (w := exchanged E i (firstPost password auth) n w) otp otptype auth.timeout hreply
        with ⟨⟨e, hrun⟩, hstops⟩
      simp only [hstatus, if_true, hrun, hstops, stops_ticketAuth, stops_postTicket]
      exact ⟨⟨e, rfl⟩, rfl⟩
    · have hagain := exec_ticketAuth (E := E) (i := i) (n := n + 1) hlater
      simp only [hstatus, if_false, Co.exec_bind_ok hagain, Co.stops_bind_ok hagain,
        stops_ticketAuth, stops_postTicket]
      exact ⟨⟨_, rfl⟩, rfl⟩

/-- A login whose first answer is accepted goes on to adopt it. -/
theorem exec_getNewTokens_accepted {n : Nat}
    {w : World τ Machine Exchange Outcome Remark} {auth : ProxmoxHTTPAuth}
    (h : w.state.client.auth = .ticket auth) (password : Option String) (otp : Option Bool)
    (otptype : Option String) {data : Json} (hreply : acceptedData (E.reply n) = some data) :
    ∃ response, bodyData response = some data ∧
      (getNewTokens password otp otptype).exec E i n w =
        (acceptLogin otp otptype auth.timeout response).exec E i (n + 1)
          (exchanged E i (firstPost password auth) n w) ∧
      (getNewTokens password otp otptype).stops E n w.state =
        w.state :: (acceptLogin otp otptype auth.timeout response).stops E (n + 1)
          (exchanged E i (firstPost password auth) n w).state := by
  have hauth := exec_ticketAuth (E := E) (i := i) (n := n) h
  have hpost : (postTicket (.login password) auth auth.timeout (loginData password auth)).exec
      E i n w = ⟨E.reply n, n + 1, exchanged E i (firstPost password auth) n w⟩ := rfl
  unfold getNewTokens
  rw [Co.exec_bind_ok hauth, Co.stops_bind_ok hauth]
  rcases hr : E.reply n with e | response
  · rw [hr] at hreply
    contradiction
  · rw [hr] at hpost hreply
    by_cases hstatus : response.status = 200
    · simp only [acceptedData, hstatus, if_true] at hreply
      refine ⟨response, hreply, ?_⟩
      rw [Co.exec_bind_ok hpost, Co.stops_bind_ok hpost]
      simp only [hstatus, if_true, stops_ticketAuth, stops_postTicket]
      exact ⟨trivial, rfl⟩
    · simp only [acceptedData, hstatus, if_false] at hreply
      contradiction

/-- A second factor is posted from where the first answer left the client. -/
theorem stops_secondFactor {n : Nat} {m : Machine} {auth : ProxmoxHTTPAuth}
    (h : m.client.auth = .ticket auth) (otp : Option Bool) (otptype : Option String)
    (timeout : ℚ) :
    ∃ rest, (secondFactor otp otptype timeout).stops E n m = m :: rest := by
  have hauth := exec_ticketAuth (E := E) (i := ()) (n := n) (w := ⟨m, []⟩) h
  unfold secondFactor
  have hfirst := Co.stops_bind_ok hauth fun auth => do
    let response ← postTicket .secondFactor auth timeout (otpData otp otptype auth)
    let otpJson ← Co.ofExcept response.json
    let data ← Co.ofExcept (otpJson.dictGet "data")
    if data.truthy then
      adoptTokens data
    else
      throw (.proxmoxAuthError
        "Couldn't authenticate user: missing Two Factor Authentication (TFA)")
  rw [hfirst, stops_ticketAuth, List.nil_append,
    Co.stops_bind E () n ⟨m, []⟩, stops_postTicket]
  exact ⟨_, rfl⟩

end Exec

/-! ## All or nothing -/

/-- What others read from a client after {lit}`k` answers of a login: no challenge
of these answers, and both tokens of the time before or of one answer. -/
def ReadsWhole (E : Surroundings Machine Outcome) (n : Nat) (before : Machine) (k : Nat)
    (m : Machine) : Prop :=
  ∃ tokens, m.tokens = some tokens ∧
    (∀ j < k, ∀ data, answeredData (E.reply (n + j)) = some data → needsTfa data = true →
      data.field? "ticket" ≠ some tokens.pveAuthTicket) ∧
    (m.tokens = before.tokens ∨ ∃ j < k, ∃ data,
      answeredData (E.reply (n + j)) = some data ∧
        data.field? "ticket" = some tokens.pveAuthTicket ∧
        data.field? "CSRFPreventionToken" = some tokens.csrfPreventionToken)

/-- What a login promises: where it raises, the tokens are those before it; where
it returns, ticket and token are those of its last answer; and wherever it is
suspended, others read whole tokens. -/
structure AllOrNothing {τ : Type} (E : Surroundings Machine Outcome) (i : τ)
    (password : Option String) (otp : Option Bool) (otptype : Option String) (n : Nat)
    (w : World τ Machine Exchange Outcome Remark) : Prop where
  raised : ∀ e, ((getNewTokens password otp otptype).exec E i n w).result = .error e →
    ((getNewTokens password otp otptype).exec E i n w).world.state.tokens = w.state.tokens
  returned : ((getNewTokens password otp otptype).exec E i n w).result = .ok () →
    ∃ data tokens,
      answeredData (E.reply (((getNewTokens password otp otptype).exec E i n w).calls - 1)) =
        some data ∧
      ((getNewTokens password otp otptype).exec E i n w).world.state.tokens = some tokens ∧
      data.field? "ticket" = some tokens.pveAuthTicket ∧
      data.field? "CSRFPreventionToken" = some tokens.csrfPreventionToken
  suspended : ∀ k m, ((getNewTokens password otp otptype).stops E n w.state)[k]? = some m →
    ReadsWhole E n w.state k m

section AllOrNothing

variable {τ : Type} {E : Surroundings Machine Outcome} {i : τ} {password : Option String}
  {otp : Option Bool} {otptype : Option String} {n : Nat}
  {w : World τ Machine Exchange Outcome Remark} {auth : ProxmoxHTTPAuth}

/-- Nothing is assigned before the first answer. -/
theorem suspended_once (hauth : w.state.client.auth = .ticket auth)
    (hstops : (getNewTokens password otp otptype).stops E n w.state = [w.state]) (k : Nat)
    (m : Machine) (hm : ((getNewTokens password otp otptype).stops E n w.state)[k]? = some m) :
    ReadsWhole E n w.state k m := by
  rw [hstops] at hm
  have hk : k = 0 := by
    have hlt := (List.getElem?_eq_some_iff.mp hm).1
    simpa using hlt
  subst hk
  simp only [List.getElem?_cons_zero, Option.some.injEq] at hm
  subst hm
  refine ⟨auth.tokens, Machine.tokens_eq hauth, ?_, .inl rfl⟩
  intro j hj
  exact absurd hj (Nat.not_lt_zero j)

/-- The exchange of a login leaves the authentication alone. -/
theorem exchanged_auth (hE : Quiet E) (hauth : w.state.client.auth = .ticket auth)
    (q : Exchange) : (exchanged E i q n w).state.client.auth = .ticket auth := by
  rw [← hauth]
  exact congrArg ProxmoxVE.auth (hE n w.state)

/-- With quiet surroundings an exchange leaves the tokens alone. -/
theorem exchanged_tokens (hE : Quiet E) (hauth : w.state.client.auth = .ticket auth)
    (q : Exchange) : (exchanged E i q n w).state.tokens = w.state.tokens := by
  rw [Machine.tokens_eq (exchanged_auth hE hauth q), Machine.tokens_eq hauth]

/-- A login that is not accepted changes nothing. -/
theorem allOrNothing_of_rejected (hE : Quiet E) (hauth : w.state.client.auth = .ticket auth)
    (hreply : acceptedData (E.reply n) = none) :
    AllOrNothing E i password otp otptype n w := by
  rcases exec_getNewTokens_rejected hE (i := i) hauth password otp otptype hreply with
    ⟨⟨e, hrun⟩, hstops⟩
  refine ⟨?_, ?_, suspended_once hauth hstops⟩
  · intro e' _
    rw [hrun]
    exact exchanged_tokens hE hauth _
  · intro hok
    rw [hrun] at hok
    contradiction

/-- A login without a second factor is all or nothing where its answer has
everything. -/
theorem allOrNothing_of_plain (hE : Quiet E) (hauth : w.state.client.auth = .ticket auth)
    {data : Json} (hreply : acceptedData (E.reply n) = some data)
    (husable : usable data = true) (hplain : needsTfa data = false) :
    AllOrNothing E i password otp otptype n w := by
  rcases exec_getNewTokens_accepted (E := E) (i := i) hauth password otp otptype hreply with
    ⟨response, hbody, hrun, hstops⟩
  rcases exec_acceptLogin_usable (E := E) (i := i) (n := n + 1)
    (exchanged_auth hE hauth (firstPost password auth)) otp otptype auth.timeout hbody husable
    with ⟨hrest, hreststops⟩
  rcases usable_eq_true husable with ⟨ticket, csrf, ht, hc, -⟩
  simp only [hplain, Bool.false_eq_true, if_false, Co.exec_pure, Co.stops_pure] at hrest hreststops
  rw [hrest] at hrun
  rw [hreststops] at hstops
  refine ⟨?_, ?_, suspended_once hauth hstops⟩
  · intro e herr
    rw [hrun] at herr
    contradiction
  · intro _
    rw [hrun]
    refine ⟨data, _, answeredData_of_accepted hreply, Machine.tokens_withTicket _ _, ?_, ?_⟩
    · simpa [ProxmoxHTTPAuth.adopted, ProxmoxHTTPAuth.assigned_eq _ _ ht hc,
        ProxmoxHTTPAuth.tokens] using ht
    · simpa [ProxmoxHTTPAuth.adopted, ProxmoxHTTPAuth.assigned_eq _ _ ht hc,
        ProxmoxHTTPAuth.tokens] using hc

/-- Where the answer has everything and asks for a second factor, others can read
the challenge while that is on its way. -/
theorem not_allOrNothing_of_challenge (hE : Quiet E)
    (hauth : w.state.client.auth = .ticket auth) {data : Json}
    (hreply : acceptedData (E.reply n) = some data) (husable : usable data = true)
    (hneed : needsTfa data = true) : ¬ AllOrNothing E i password otp otptype n w := by
  intro hall
  rcases exec_getNewTokens_accepted (E := E) (i := i) hauth password otp otptype hreply with
    ⟨response, hbody, -, hstops⟩
  rcases exec_acceptLogin_usable (E := E) (i := i) (n := n + 1)
    (exchanged_auth hE hauth (firstPost password auth)) otp otptype auth.timeout hbody husable
    with ⟨-, hreststops⟩
  rcases usable_eq_true husable with ⟨ticket, csrf, ht, hc, -⟩
  simp only [hneed, if_true] at hreststops
  rcases stops_secondFactor (E := E) (n := n + 1) (Machine.withTicket_auth
    (exchanged E i (firstPost password auth) n w).state
    (auth.adopted (exchanged E i (firstPost password auth) n w).state.monotonic data))
    otp otptype auth.timeout with ⟨rest, hsecond⟩
  rw [hreststops, hsecond] at hstops
  have hmiddle := hall.suspended 1 _ (by rw [hstops]; rfl)
  rcases hmiddle with ⟨tokens, htokens, hchallenge, -⟩
  rw [Machine.tokens_withTicket, Option.some.injEq] at htokens
  refine hchallenge 0 Nat.one_pos data (answeredData_of_accepted hreply) hneed ?_
  rw [← htokens, ht]
  simp [ProxmoxHTTPAuth.adopted, ProxmoxHTTPAuth.assigned_eq _ _ ht hc, ProxmoxHTTPAuth.tokens]

/-- An answer that lacks something leaves no trace only if it brought nothing new. -/
theorem allOrNothing_unusable_iff (hE : Quiet E) (hauth : w.state.client.auth = .ticket auth)
    {data : Json} (hreply : acceptedData (E.reply n) = some data)
    (hnot : usable data = false) :
    AllOrNothing E i password otp otptype n w ↔
      auth.Coincides (E.during n w.state).monotonic data := by
  rcases exec_getNewTokens_accepted (E := E) (i := i) hauth password otp otptype hreply with
    ⟨response, hbody, hrun, hstops⟩
  rcases exec_acceptLogin_unusable (E := E) (i := i) (n := n + 1)
    (exchanged_auth hE hauth (firstPost password auth)) otp otptype auth.timeout hbody hnot
    with ⟨⟨e, hrest⟩, hreststops⟩
  rw [hrest] at hrun
  rw [hreststops] at hstops
  rw [← ProxmoxHTTPAuth.tokens_assigned_iff]
  constructor
  · intro hall
    have hsame := hall.raised e (by rw [hrun])
    rw [hrun, Machine.tokens_eq hauth] at hsame
    exact Option.some.inj hsame
  · intro hsame
    refine ⟨?_, ?_, suspended_once hauth hstops⟩
    · intro e' _
      rw [hrun, Machine.tokens_eq hauth]
      exact congrArg some hsame
    · intro hok
      rw [hrun] at hok
      contradiction

/-- A login is all or nothing exactly if its first answer, where it is accepted,
has everything and asks for no second factor, or lacks something and brings
nothing new before that. -/
theorem login_allOrNothing_iff (hE : Quiet E) (hauth : w.state.client.auth = .ticket auth) :
    AllOrNothing E i password otp otptype n w ↔
      ∀ data, acceptedData (E.reply n) = some data →
        if usable data = true then needsTfa data = false
        else auth.Coincides (E.during n w.state).monotonic data := by
  rcases hreply : acceptedData (E.reply n) with _ | data
  · constructor
    · intro _ data h
      contradiction
    · intro _
      exact allOrNothing_of_rejected hE hauth hreply
  · simp only [Option.some.injEq, forall_eq']
    by_cases husable : usable data = true
    · simp only [husable, if_true]
      constructor
      · intro hall
        by_contra hneed
        exact not_allOrNothing_of_challenge hE hauth hreply husable
          (by simpa using hneed) hall
      · exact allOrNothing_of_plain hE hauth hreply husable
    · simp only [husable]
      exact allOrNothing_unusable_iff hE hauth hreply (by simpa using husable)

end AllOrNothing

/-- A client whose login is answered in full at once. -/
theorem login_allOrNothing_witness :
    ∃ client, ProxmoxVE.init {
        host := "192.0.2.1", user := some "root@pam", password := some "secret" } = .ok client ∧
      AllOrNothing
        ⟨fun _ m => m, fun _ => .ok {
          status := 200
          json := .ok (.obj [("data", .obj [("ticket", .str "PVE:root@pam:1"),
            ("CSRFPreventionToken", .str "1:token")])]) }⟩
        () (some "secret") (some false) (some "totp") 0 ⟨⟨client, 0⟩, []⟩ := by
  refine ⟨_, rfl, ?_⟩
  refine (login_allOrNothing_iff (fun _ _ => rfl) rfl).mpr ?_
  intro data hdata
  have hanswer : data = .obj [("ticket", .str "PVE:root@pam:1"),
      ("CSRFPreventionToken", .str "1:token")] :=
    (Option.some.inj hdata).symm
  subst hanswer
  rfl

/-- A client that is asked for a second factor and then refused keeps the
challenge as its ticket. -/
theorem login_allOrNothing_counterexample :
    ∃ client, ProxmoxVE.init {
        host := "192.0.2.1", user := some "root@pam", password := some "secret"
        otp := some "123456" } = .ok client ∧
      ¬ AllOrNothing
        ⟨fun _ m => m, fun n =>
          if n = 0 then .ok {
            status := 200
            json := .ok (.obj [("data", .obj [("ticket", .str "PVE:!tfa!1"),
              ("CSRFPreventionToken", .str "1:token"), ("NeedTFA", .int 1)])]) }
          else .ok { status := 401, json := .ok (.obj [("data", .null)]) }⟩
        () (some "secret") (some true) (some "totp") 0 ⟨⟨client, 0⟩, []⟩ := by
  refine ⟨_, rfl, ?_⟩
  intro hall
  have hkept := hall.raised _ rfl
  have hticket := congrArg (Option.map Tokens.pveAuthTicket) hkept
  have htext : Json.str "PVE:!tfa!1" = .str "" := Option.some.inj hticket
  exact absurd (Json.str.inj htext) (by decide)

end AioProxmox
