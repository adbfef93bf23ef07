import AioProxmox.Client.State
import AioProxmox.Coroutine.Program

/-!
# Client - the request pipeline

The asynchronous methods of the client and of its authentication, as coroutines:
the login conversation, one attempt of a request, the probe, the failover and
{lit}`request` itself.

One exchange with the API is one call: between sending and leaving the
{lit}`async with` block the code reads and writes nothing that others see, save
where this module says so.  The tag of an exchange says which part of the client
made it; the wire does not carry it.

Main definitions:

- {lit}`getNewTokens`, {lit}`relogin` and {lit}`checkAndRefresh`: the login
  conversation and the renewal of a ticket.
- {lit}`requestOnce` and {lit}`answers`: one attempt, and the probe.
- {lit}`failover`: the search for a host that answers, under the lock.
- {lit}`request`: the pipeline with its two recoveries.
-/

namespace AioProxmox

open Coroutine

/-! ## Exchanges with the API -/

/-- Which part of the client makes an exchange: the caller's request, a probe of
the current host or of a candidate, the first post of a login (with the password
handed to it, if one was) or its second factor. -/
inductive Purpose where
  | request
  | probe (candidate : Bool)
  | login (password : Option String)
  | secondFactor
deriving DecidableEq

/-- A query parameter: {lit}`int(v)` of a flag, {lit}`str(v)` of anything else. -/
inductive QueryValue where
  | int (n : Int)
  | text (v : Json)

/-- What is handed to the aiohttp session. -/
structure HttpRequest where
  method : String
  url : String
  headers : List (String × HeaderValue)
  query : Option (List (String × QueryValue)) := none
  json : Option Dict := none
  data : Option Dict := none
  timeout : ℚ
  ssl : VerifySsl

/-- An exchange and the part of the client that makes it. -/
structure Exchange where
  purpose : Purpose
  request : HttpRequest

/-- An answer.  Reading its body as text or as JSON may raise; {lit}`reason` is
none where it is not a string. -/
structure Response where
  status : Nat
  reason : Option String := none
  text : Except Exc String := .ok ""
  json : Except Exc Json := .ok .null

/-- How an exchange ends: with an answer, or raising. -/
abbrev Outcome := Except Exc Response

/-- What the model remembers of a run besides the exchanges. -/
inductive Remark where
  | failoverEntered (fromHost : Option String) (verifyCurrent : Bool)
  | failoverReturned (verdict : Bool)
  | reloginEntered
  | reloginReturned
  | learnHostsEntered
deriving DecidableEq

/-- What all tasks share: the client, and the monotonic clock. -/
structure Machine where
  client : ProxmoxVE
  monotonic : ℚ

/-- Change what only a password client has. -/
def Machine.mapTicket (m : Machine) (f : ProxmoxHTTPAuth → ProxmoxHTTPAuth) : Machine :=
  match m.client.auth with
  | .ticket auth => { m with client.auth := .ticket (f auth) }
  | .token _ => m

/-- A coroutine of the client. -/
abbrev Prog (α : Type) := Co Machine Exchange Outcome Exc Remark α

/-- The client as it is now. -/
def self : Prog ProxmoxVE := do
  let m ← Co.state
  return m.client

/-- The property {lit}`host`, raising where the index is out of range. -/
def currentHost : Prog String := do
  let client ← self
  Co.ofExcept client.host

/-! ## Logging in -/

/-- The authentication, in a method that only {lit}`ProxmoxHTTPAuth` has. -/
def ticketAuth : Prog ProxmoxHTTPAuth := do
  let client ← self
  match client.auth with
  | .ticket auth => return auth
  | .token _ =>
      throw (.attributeError "'ProxmoxHTTPApiTokenAuth' object has no such attribute")

/-- The arguments of {lit}`session.post(f"{base_url}/access/ticket", ...)`. -/
def ticketExchange (purpose : Purpose) (auth : ProxmoxHTTPAuth) (timeout : ℚ)
    (data : Dict) : Exchange where
  purpose := purpose
  request := {
    method := "POST", url := auth.baseUrl ++ "/access/ticket", headers := []
    data := some data, timeout := timeout, ssl := auth.verifySsl }

/-- The post itself. -/
def postTicket (purpose : Purpose) (auth : ProxmoxHTTPAuth) (timeout : ℚ) (data : Dict) :
    Prog Response :=
  Co.await (ticketExchange purpose auth timeout data)

/-- {lit}`password or self.pve_auth_ticket`. -/
def targetPassword (password : Option String) (auth : ProxmoxHTTPAuth) : Json :=
  match password with
  | some p => if p = "" then auth.pveAuthTicket else .str p
  | none => auth.pveAuthTicket

/-- The form of the first post. -/
def loginData (password : Option String) (auth : ProxmoxHTTPAuth) : Dict :=
  [("username", .str auth.username), ("password", targetPassword password auth)]

/-- {lit}`f"{otp}"` of an optional flag. -/
def otpText : Option Bool → String
  | none => "None"
  | some true => "True"
  | some false => "False"

/-- The form of the second post. -/
def otpData (otp : Option Bool) (otptype : Option String) (auth : ProxmoxHTTPAuth) : Dict :=
  [("username", .str auth.username), ("tfa-challenge", auth.pveAuthTicket),
    ("password", .str (otptype.getD "None" ++ ":" ++ otpText otp))]

/-- The three assignments that adopt an answer, one after the other: the clock
is read before the keys are looked up. -/
def adoptTokens (data : Json) : Prog Unit := do
  Co.modify fun m => m.mapTicket fun auth => { auth with birthTime := m.monotonic }
  let ticket ← Co.ofExcept (data.getItem "ticket")
  Co.modify fun m => m.mapTicket fun auth => { auth with pveAuthTicket := ticket }
  let csrf ← Co.ofExcept (data.getItem "CSRFPreventionToken")
  Co.modify fun m => m.mapTicket fun auth => { auth with csrfPreventionToken := csrf }

/-- {lit}`if "cap" in response_data`. -/
def adoptCapabilities (data : Json) : Prog Unit :=
  match data.field? "cap" with
  | some cap => do
      let capabilities ← Co.ofExcept (PVECapabilities.ofKwargs cap)
      Co.modify fun m => m.mapTicket fun auth => { auth with capabilities := some capabilities }
  | none => pure ()

/-- The secondary step of a login: post the code against the challenge.  The
status of the answer is not looked at. -/
def secondFactor (otp : Option Bool) (otptype : Option String) (timeout : ℚ) : Prog Unit := do
  let auth ← ticketAuth
  let response ← postTicket .secondFactor auth timeout (otpData otp otptype auth)
  let otpJson ← Co.ofExcept response.json
  let data ← Co.ofExcept (otpJson.dictGet "data")
  if data.truthy then
    adoptTokens data
  else
    throw (.proxmoxAuthError
      "Couldn't authenticate user: missing Two Factor Authentication (TFA)")

/-- What {lit}`_get_new_tokens` does with an accepted first answer. -/
def acceptLogin (otp : Option Bool) (otptype : Option String) (timeout : ℚ)
    (response : Response) : Prog Unit := do
  let resJson ← Co.ofExcept response.json
  let data ← Co.ofExcept (resJson.getItem "data")
  adoptTokens data
  adoptCapabilities data
  let needTfa ← Co.ofExcept (data.dictGet "NeedTFA")
  if needTfa.isSome then secondFactor otp otptype timeout else pure ()

/-- {lit}`_get_new_tokens`. -/
def getNewTokens (password : Option String) (otp : Option Bool) (otptype : Option String) :
    Prog Unit := do
  let auth ← ticketAuth
  let response ← postTicket (.login password) auth auth.timeout (loginData password auth)
  if response.status = 200 then
    acceptLogin otp otptype auth.timeout response
  else do
    let now ← ticketAuth
    throw (.proxmoxAuthError ("Couldn't authenticate user " ++ now.username ++ " to " ++
      now.baseUrl ++ "/access/ticket: Code " ++ toString response.status))

/-- {lit}`async_init`, and what {lit}`relogin` does: log in with the password. -/
def asyncInit : Prog Unit := do
  let auth ← ticketAuth
  getNewTokens (some auth.password) auth.otp (some auth.otptype)

/-- {lit}`relogin`. -/
def relogin : Prog Unit := do
  Co.remark .reloginEntered
  asyncInit
  Co.remark .reloginReturned

/-- Whether the ticket is due for renewal at a reading of the clock. -/
def ProxmoxHTTPAuth.due (auth : ProxmoxHTTPAuth) (monotonic : ℚ) : Bool :=
  decide (monotonic - auth.birthTime ≥ renewAge)

/-- {lit}`except ProxmoxAuthError` of {lit}`check_and_refresh`. -/
def refused (err : Exc) : Prog Unit :=
  match err with
  | .proxmoxAuthError _ => relogin
  | err => throw err

/-- {lit}`check_and_refresh` of either class; its argument is not used. -/
def checkAndRefresh : Prog Unit := do
  let m ← Co.state
  match m.client.auth with
  | .token _ => pure ()
  | .ticket auth =>
      if auth.due m.monotonic then
        tryCatch (getNewTokens none none none) refused
      else pure ()

/-! ## One attempt -/

/-- The query of a reading or deleting request. -/
def queryOf (params : Dict) : List (String × QueryValue) :=
  params.map fun kv =>
    match kv.2 with
    | .bool b => (kv.1, .int (if b then 1 else 0))
    | v => (kv.1, .text v)

/-- Whether parameters go into the query. -/
def sendsQuery (method : String) : Bool :=
  method.toUpper ∈ ["GET", "DELETE"]

/-- {lit}`params` of a reading or deleting request: {lit}`json_data` goes there too. -/
def requestQuery (method : String) (jsonData params : Option Dict) :
    Option (List (String × QueryValue)) :=
  let merged := Dict.merge (params.getD []) (jsonData.getD [])
  if sendsQuery method then
    if merged.isEmpty then none else some (queryOf merged)
  else none

/-- {lit}`json` of any other request. -/
def requestJson (method : String) (jsonData : Option Dict) : Option Dict :=
  if sendsQuery method then none
  else if (jsonData.getD []).isEmpty then none else jsonData

/-- The request {lit}`_request_once` hands to the session. -/
def buildRequest (client : ProxmoxVE) (method path : String) (jsonData params : Option Dict)
    (timeout : Option ℚ) : Except Exc HttpRequest := do
  let authHeaders ← client.auth.getHeaders
  let headers := [("Accept", .text "application/json"), ("Connection", .text "keep-alive")] ++
    authHeaders
  let cookies := client.auth.getCookies
  let headers := if cookies.isEmpty then headers else headers ++ [("Cookie", .cookies cookies)]
  let total :=
    match timeout with
    | some t => if t = 0 then client.timeout else t
    | none => client.timeout
  return {
    method := method
    url := Text.rstrip '/' client.baseUrl ++ "/" ++ Text.lstrip '/' path
    headers := headers, query := requestQuery method jsonData params
    json := requestJson method jsonData, timeout := total
    ssl := client.verifySsl }

/-- {lit}`_says_nothing`. -/
def saysNothing (body : String) : Bool :=
  Text.without '\n' (Text.without ' ' body) ∈ ["", "\x7b\"data\":null\x7d"]

/-- The message of a refusal: the reason phrase, and the body where it says
more. -/
def refusalMessage (reason text : String) : String :=
  if reason ≠ "" ∧ saysNothing text = true then reason
  else if reason ≠ "" ∧ Text.contains text reason = false then reason ++ ": " ++ text
  else text

/-- What {lit}`_request_once` makes of an answer. -/
def readResponse (path : String) (response : Response) : Except Exc Json :=
  if response.status ∈ [200, 201] then do
    let payload ← response.json
    match payload with
    | .obj fields => return (fields.lookup "data").getD .null
    | v => return v
  else do
    let text ← response.text
    throw (.proxmoxAPIError response.status
      (Text.strip (refusalMessage (response.reason.getD "") text)) path)

/-- {lit}`_request_once`: one attempt against the current host. -/
def requestOnce (purpose : Purpose) (method path : String) (jsonData params : Option Dict)
    (timeout : Option ℚ) : Prog Json := do
  let client ← self
  let request ← Co.ofExcept (buildRequest client method path jsonData params timeout)
  let response ← Co.await { purpose := purpose, request := request }
  Co.ofExcept (readResponse path response)

/-! ## Moving to another host -/

/-- {lit}`_use_host`: the index is assigned before the list is read. -/
def useHost (index : Nat) : Prog Unit := do
  Co.modify fun m => { m with client.hostIndex := index }
  let client ← self
  let host ← Co.ofExcept (client.hostAt index)
  Co.modify fun m => { m with client := m.client.pointAt host }

/-- The clauses of {lit}`_answers`; their log lines read {lit}`self.host`. -/
def silent (err : Exc) : Prog Bool :=
  match err with
  | .proxmoxAPIError .. => do
      let _ ← currentHost
      return true
  | err =>
      if err.isProxmoxError || err.isClientError || err.isTimeoutError then do
        let _ ← currentHost
        return false
      else throw err

/-- {lit}`_answers`. -/
def answers (candidate : Bool) : Prog Bool :=
  tryCatch
    (do
      let _ ← requestOnce (.probe candidate) "GET" "version" none none (some probeTimeout)
      return true)
    silent

/-- The loop of {lit}`failover` over the remaining offsets, and the return to the
start after it.  The warning on success reads {lit}`self._hosts[start]`. -/
def walk (start : Nat) : List Nat → Prog Bool
  | [] => do
      useHost start
      return false
  | offset :: rest => do
      let client ← self
      useHost ((start + offset) % client.hosts.length)
      let there ← answers true
      if there then do
        let client ← self
        let _ ← Co.ofExcept (client.hostAt start)
        let _ ← currentHost
        return true
      else walk start rest

/-- {lit}`from_host is not None and from_host != self.host`. -/
def movedFrom (fromHost : Option String) : Prog Bool :=
  match fromHost with
  | none => return false
  | some host => do
      let current ← currentHost
      return host != current

/-- {lit}`verify_current and await self._answers()`. -/
def stillAnswers (verifyCurrent : Bool) : Prog Bool :=
  if verifyCurrent then answers false else pure false

/-- The body of {lit}`failover`, under the lock. -/
def switchHost (fromHost : Option String) (verifyCurrent : Bool) : Prog Bool := do
  let client ← self
  let start := client.hostIndex
  let moved ← movedFrom fromHost
  if moved then do
    let _ ← currentHost
    return true
  else do
    let stillThere ← stillAnswers verifyCurrent
    if stillThere then do
      let _ ← currentHost
      return false
    else do
      let client ← self
      walk start (List.range' 1 (client.hosts.length - 1))

/-- {lit}`failover`. -/
def failover (fromHost : Option String) (verifyCurrent : Bool) : Prog Bool := do
  Co.remark (.failoverEntered fromHost verifyCurrent)
  let verdict ← (switchHost fromHost verifyCurrent).withLock
  Co.remark (.failoverReturned verdict)
  return verdict

/-! ## The pipeline -/

/-- {lit}`len(self._hosts) >= 2 and await self.failover(...)`. -/
def failoverIfPeers (fromHost : Option String) (verifyCurrent : Bool) : Prog Bool := do
  let client ← self
  if client.hosts.length < 2 then return false else failover fromHost verifyCurrent

/-- The clause of {lit}`request` around the renewal. -/
def renewElsewhere (err : Exc) : Prog Unit :=
  if err.isLostHost then do
    let moved ← failoverIfPeers none false
    if moved then checkAndRefresh else throw err
  else throw err

/-- The clauses of {lit}`request` around the first attempt. -/
def recover (method path : String) (jsonData params : Option Dict) (hostBefore : String)
    (err : Exc) : Prog Json :=
  match err with
  | .proxmoxAPIError status message endpoint => do
      let client ← self
      if status ≠ 401 ∨ client.auth.hasRelogin = false then
        throw (.proxmoxAPIError status message endpoint)
      else do
        relogin
        requestOnce .request method path jsonData params none
  | err =>
      if err.isLostHost then do
        let moved ← failoverIfPeers (some hostBefore) true
        if moved then requestOnce .request method path jsonData params none else throw err
      else throw err

/-- {lit}`request`. -/
def request (method path : String) (jsonData params : Option Dict) : Prog Json := do
  tryCatch checkAndRefresh renewElsewhere
  let hostBefore ← currentHost
  tryCatch (requestOnce .request method path jsonData params none)
    (recover method path jsonData params hostBefore)

end AioProxmox
