import AioProxmox.Client.Values

/-!
# Client - the state of a client

The fields of {lit}`ProxmoxVE` and of its authentication that the request
pipeline reads or writes, the constructor, and the synchronous methods:
{lit}`host`, {lit}`learn_hosts`, {lit}`_use_host`, {lit}`get_headers` and
{lit}`get_cookies`.

Main results:

- Definition {lit}`ProxmoxVE.init`: the constructor, with the errors it raises.
- Definition {lit}`ProxmoxVE.learnHosts`: the loop that extends or replaces the
  host list, and the index recomputed from the host in use.
- Theorem {lit}`apiUrl_injective`: with the port fixed, a URL names one host.
-/

namespace AioProxmox

/-! ## Constants -/

/-- {lit}`const.DEFAULT_PVE_PORT`. -/
def defaultPvePort : Nat := 8006

/-- {lit}`const.PROBE_TIMEOUT`. -/
def probeTimeout : ℚ := 10

/-- An entry of {lit}`SERVICES`. -/
structure Service where
  defaultPort : Nat
  tokenSeparator : String

/-- The table {lit}`SERVICES`. -/
def services : List (String × Service) :=
  [("PVE", { defaultPort := defaultPvePort, tokenSeparator := "=" })]

/-- {lit}`SERVICES[service]`. -/
def lookupService (service : String) : Except Exc Service :=
  match services.lookup service with
  | some entry => .ok entry
  | none => .error (.keyError service)

/-- {lit}`f"https://{host}:{port}/api2/json"` with its two fields filled in. -/
def apiUrl (host : String) (port : Nat) : String :=
  "https://" ++ host ++ ":" ++ toString port ++ "/api2/json"

/-- Hosts are told apart by their URLs. -/
theorem apiUrl_injective {port : Nat} {a b : String} (h : apiUrl a port = apiUrl b port) :
    a = b := by
  simp only [apiUrl, String.append_left_inj, String.append_right_inj] at h
  exact h

/-! ## Authentication -/

/-- {lit}`verify_ssl`: a flag, or a context by what identifies it. -/
inductive VerifySsl where
  | flag (b : Bool)
  | context (name : String)
deriving DecidableEq

/-- {lit}`PVECapabilities`. -/
structure PVECapabilities where
  nodes : Json := .obj []
  sdn : Json := .obj []
  storage : Json := .obj []
  vms : Json := .obj []
  access : Json := .obj []
  dc : Json := .obj []
  mapping : Json := .obj []

/-- The names the constructor of {lit}`PVECapabilities` takes. -/
def PVECapabilities.fieldNames : List String :=
  ["nodes", "sdn", "storage", "vms", "access", "dc", "mapping"]

/-- {lit}`PVECapabilities(**cap)`. -/
def PVECapabilities.ofKwargs (cap : Json) : Except Exc PVECapabilities :=
  match cap with
  | .obj fields =>
      match fields.find? (fun kv => kv.1 ∉ fieldNames) with
      | some kv =>
          .error (.typeError
            ("PVECapabilities.__init__() got an unexpected keyword argument '" ++ kv.1 ++ "'"))
      | none =>
          .ok {
            nodes := (fields.lookup "nodes").getD (.obj [])
            sdn := (fields.lookup "sdn").getD (.obj [])
            storage := (fields.lookup "storage").getD (.obj [])
            vms := (fields.lookup "vms").getD (.obj [])
            access := (fields.lookup "access").getD (.obj [])
            dc := (fields.lookup "dc").getD (.obj [])
            mapping := (fields.lookup "mapping").getD (.obj []) }
  | v =>
      .error (.typeError
        ("aioproxmox.model.PVECapabilities() argument after ** must be a mapping, not " ++
          v.typeName))

/-- Capabilities that do not fit raise a lookup error. -/
theorem PVECapabilities.ofKwargs_raises {cap : Json} {e : Exc}
    (h : ofKwargs cap = .error e) : e.isLookup = true := by
  unfold ofKwargs at h
  split at h
  · split at h
    · cases h
      rfl
    · contradiction
  · cases h
    rfl

/-- The attributes of {lit}`ProxmoxHTTPAuthBase`; {lit}`capabilities` is declared
there and set by a login only. -/
structure ProxmoxHTTPAuthBase where
  timeout : ℚ := 5
  service : String := "PVE"
  verifySsl : VerifySsl := .flag false
  capabilities : Option PVECapabilities := none
  baseUrl : String := ""

/-- {lit}`ProxmoxHTTPAuth`: the stored password and the ticket in use.  A ticket
is whatever the API put under that key. -/
structure ProxmoxHTTPAuth extends ProxmoxHTTPAuthBase where
  username : String
  password : String
  otp : Option Bool := none
  otptype : String := "totp"
  pveAuthTicket : Json := .str ""
  csrfPreventionToken : Json := .str ""
  birthTime : ℚ := 0

/-- {lit}`ProxmoxHTTPAuth.renew_age`. -/
def renewAge : ℚ := 3600

/-- {lit}`ProxmoxHTTPApiTokenAuth`. -/
structure ProxmoxHTTPApiTokenAuth extends ProxmoxHTTPAuthBase where
  username : String
  tokenName : String
  tokenValue : String

/-- What {lit}`self.auth` is: tickets from a password, or an API token. -/
inductive Auth where
  | ticket (auth : ProxmoxHTTPAuth)
  | token (auth : ProxmoxHTTPApiTokenAuth)

/-- The value of a header, of which aiohttp renders the text: a cookie header is
kept as the pairs it joins. -/
inductive HeaderValue where
  | text (s : String)
  | value (v : Json)
  | cookies (pairs : List (String × Json))

namespace Auth

/-- {lit}`self.auth.base_url`. -/
def baseUrl : Auth → String
  | ticket auth => auth.baseUrl
  | token auth => auth.baseUrl

/-- {lit}`self.auth.base_url = url`. -/
def setBaseUrl (url : String) : Auth → Auth
  | ticket auth => ticket { auth with baseUrl := url }
  | token auth => token { auth with baseUrl := url }

/-- {lit}`hasattr(self.auth, "relogin")`; {lit}`async_init` goes with it. -/
def hasRelogin : Auth → Bool
  | ticket _ => true
  | token _ => false

/-- {lit}`get_headers` of either class. -/
def getHeaders : Auth → Except Exc (List (String × HeaderValue))
  | ticket auth => .ok [("CSRFPreventionToken", .value auth.csrfPreventionToken)]
  | token auth => do
      let entry ← lookupService auth.service
      return [("Authorization", .text (auth.service ++ "APIToken=" ++ auth.username ++ "!" ++
        auth.tokenName ++ entry.tokenSeparator ++ auth.tokenValue))]

/-- {lit}`get_cookies` of either class. -/
def getCookies : Auth → List (String × Json)
  | ticket auth => [(auth.service ++ "AuthCookie", auth.pveAuthTicket)]
  | token _ => []

@[simp]
theorem baseUrl_setBaseUrl (url : String) (auth : Auth) :
    (auth.setBaseUrl url).baseUrl = url := by
  cases auth <;> rfl

@[simp]
theorem hasRelogin_setBaseUrl (url : String) (auth : Auth) :
    (auth.setBaseUrl url).hasRelogin = auth.hasRelogin := by
  cases auth <;> rfl

@[simp]
theorem getHeaders_setBaseUrl (url : String) (auth : Auth) :
    (auth.setBaseUrl url).getHeaders = auth.getHeaders := by
  cases auth <;> rfl

end Auth

/-! ## The client -/

/-- The attributes of {lit}`ProxmoxVE` that the request pipeline uses. -/
structure ProxmoxVE where
  auth : Auth
  baseUrl : String
  hosts : List String
  hostIndex : Nat
  port : Nat
  verifySsl : VerifySsl
  timeout : ℚ

namespace ProxmoxVE

/-- {lit}`self._hosts[index]`. -/
def hostAt (self : ProxmoxVE) (index : Nat) : Except Exc String :=
  match self.hosts[index]? with
  | some host => .ok host
  | none => .error (.indexError "list index out of range")

/-- An index out of range raises a lookup error. -/
theorem hostAt_raises {self : ProxmoxVE} {index : Nat} {e : Exc}
    (h : self.hostAt index = .error e) : e.isLookup = true := by
  unfold hostAt at h
  split at h
  · contradiction
  · cases h
    rfl

/-- The property {lit}`host`: the host currently in use. -/
def host (self : ProxmoxVE) : Except Exc String :=
  self.hostAt self.hostIndex

/-- The host the constructor puts first: what stands before a colon, unless the
address is bracketed. -/
def cleanHost (host : String) : String :=
  if Text.contains host ":" && !Text.startsWith host "[" then Text.before ':' host else host

/-- The arguments of {lit}`ProxmoxVE(...)`. -/
structure Arguments where
  host : String
  user : Option String := none
  password : Option String := none
  otp : Option String := none
  port : Option Nat := none
  verifySsl : VerifySsl := .flag true
  timeout : ℚ := 5
  tokenName : Option String := none
  tokenValue : Option String := none
  service : String := "PVE"

/-- {lit}`str(value)` of an optional string. -/
def strOf (value : Option String) : String :=
  value.getD "None"

/-- {lit}`bool(otp)`. -/
def boolOf (otp : Option String) : Bool :=
  match otp with
  | some code => code != ""
  | none => false

/-- The port given, or that of the service where none or zero is. -/
def portOf (args : Arguments) : Except Exc Nat :=
  match args.port with
  | some (p + 1) => .ok (p + 1)
  | _ => do
      let entry ← lookupService args.service
      return entry.defaultPort

/-- The authentication for the credentials given: a token before a password. -/
def authOf (args : Arguments) (baseUrl : String) : Except Exc Auth :=
  match args.tokenName, args.password with
  | some tokenName, _ =>
      .ok (.token {
        username := strOf args.user, tokenName := tokenName
        tokenValue := strOf args.tokenValue
        verifySsl := args.verifySsl, timeout := args.timeout, service := args.service })
  | none, some password =>
      .ok (.ticket {
        username := strOf args.user, password := password, otp := some (boolOf args.otp)
        baseUrl := baseUrl
        verifySsl := args.verifySsl, timeout := args.timeout, service := args.service })
  | none, none =>
      .error (.proxmoxAuthError "No valid authentication credentials were supplied")

/-- The constructor. -/
def init (args : Arguments) : Except Exc ProxmoxVE := do
  let host := cleanHost args.host
  let port ← portOf args
  let auth ← authOf args (apiUrl host port)
  return {
    auth := auth, baseUrl := apiUrl host port, hosts := [host], hostIndex := 0, port := port
    verifySsl := args.verifySsl, timeout := args.timeout }

/-- The loop of {lit}`learn_hosts`: append each non-empty string not kept yet. -/
def keepNew (kept : List String) : List Json → List String
  | [] => kept
  | .str host :: rest =>
      if host ≠ "" ∧ host ∉ kept then keepNew (kept ++ [host]) rest else keepNew kept rest
  | _ :: rest => keepNew kept rest

/-- {lit}`learn_hosts`.  Reading {lit}`self.host` comes first, so the list is not
empty where {lit}`self._hosts[0]` is taken. -/
def learnHosts (self : ProxmoxVE) (hosts : List Json) (replace : Bool := false) :
    Except Exc ProxmoxVE := do
  let current ← self.host
  let kept := if replace then self.hosts.take 1 else self.hosts
  let kept := keepNew kept hosts
  let kept := if current ∈ kept then kept else kept ++ [current]
  return { self with hosts := kept, hostIndex := kept.idxOf current }

/-- News does not touch the authentication. -/
theorem learnHosts_auth {self client : ProxmoxVE} {hosts : List Json} {replace : Bool}
    (h : self.learnHosts hosts replace = .ok client) : client.auth = self.auth := by
  unfold learnHosts at h
  rcases hhost : self.host with e | current
  · rw [hhost] at h
    contradiction
  · rw [hhost] at h
    cases h
    rfl

/-- The two assignments of {lit}`_use_host` that follow the list lookup. -/
def pointAt (self : ProxmoxVE) (host : String) : ProxmoxVE :=
  { self with
    baseUrl := apiUrl host self.port
    auth := self.auth.setBaseUrl (apiUrl host self.port) }

/-- A password client on the first of some hosts, as a login has left it. -/
def loggedIn (hosts : List String) : ProxmoxVE :=
  let url := apiUrl (hosts.headD "") defaultPvePort
  { auth := .ticket {
      username := "root@pam", password := "secret", baseUrl := url
      pveAuthTicket := .str "PVE:root@pam:1", csrfPreventionToken := .str "1:token" }
    baseUrl := url, hosts := hosts, hostIndex := 0, port := defaultPvePort
    verifySsl := .flag true, timeout := 5 }

end ProxmoxVE

end AioProxmox
