import AioProxmox.System.Conduct

/-!
# System - where hosts, tickets and passwords come from

A client hears names of hosts and is handed tickets.  Whatever tasks share it, and in
whatever order they run, it talks to hosts only that it was configured with, was told of by
its user or by an answer of the cluster, and it shows no credentials but those it was given
and the tickets it was issued: the password in the body of a login, the session in headers.

Main results:

- Definitions {lit}`KnownHost` and {lit}`Issued`: where a name and a ticket come from.
- Theorem {lit}`exchanges_reachKnown`: every exchange goes to a known host.
- Theorem {lit}`exchanges_showIssued`: what every exchange shows of credentials.
-/

namespace AioProxmox

open Coroutine Collections

section Provenance

variable {τ σ : Type} {args : ProxmoxVE.Arguments} {text : Json → String}
  {calls : τ → SystemCall σ} {history history' : List (Event τ Exchange Outcome Remark)}

/-! ## Known hosts -/

/-- Where the name of a host comes from: the arguments of the client, a call of
{lit}`learn_hosts` that has begun, or what the cluster answered about its nodes. -/
inductive KnownHost (args : ProxmoxVE.Arguments) (text : Json → String)
    (calls : τ → SystemCall σ) (history : List (Event τ Exchange Outcome Remark)) :
    String → Prop
  | configured : KnownHost args text calls history (ProxmoxVE.cleanHost args.host)
  | given {i : τ} {names : List Json} {replace : Bool} {host : String}
      (h : calls i = .learnHosts names replace) (hbegun : .noted i .learnHostsEntered ∈ history)
      (hin : .str host ∈ names) : KnownHost args text calls history host
  | cluster {entries : List Json} {entry : Json}
      (h : Replied history "GET" "cluster/status" (.arr entries)) (hin : entry ∈ entries)
      (hnode : otherNode entry = true) :
      KnownHost args text calls history (text ((entry.field? "ip").getD .null))

/-- A host that is known stays known. -/
theorem KnownHost.mono {host : String} (h : KnownHost args text calls history host)
    (hsub : history ⊆ history') : KnownHost args text calls history' host := by
  cases h with
  | configured => exact .configured
  | given hcall hbegun hin => exact .given hcall (hsub hbegun) hin
  | cluster hreplied hin hnode => exact .cluster (hreplied.mono hsub) hin hnode

/-- The strings among the news are names of known hosts. -/
theorem News.known {i : τ} {names : List Json} {replace : Bool} {host : String}
    (h : News text i (calls i) history names replace) (hin : .str host ∈ names) :
    KnownHost args text calls history host := by
  cases h with
  | nothing => simp at hin
  | given hcall hbegun => exact .given hcall hbegun hin
  | cluster entries hreplied =>
      simp only [nodeAddresses, List.mem_map, List.mem_filter] at hin
      rcases hin with ⟨entry, ⟨⟨hentry, -⟩, hnode⟩, heq⟩
      cases heq
      exact .cluster hreplied hentry hnode

/-- The names that are taken over are strings among those that were given. -/
theorem mem_namesOf {names : List Json} {host : String} (h : host ∈ namesOf names) :
    .str host ∈ names := by
  simp only [namesOf, List.mem_filterMap] at h
  rcases h with ⟨value, hvalue, hname⟩
  cases value with
  | str s =>
      dsimp only at hname
      split_ifs at hname
      cases hname
      exact hvalue
  | null => contradiction
  | bool b => contradiction
  | int n => contradiction
  | float q => contradiction
  | arr items => contradiction
  | obj fields => contradiction

/-- What {lit}`learn_hosts` leaves in the list was there before or is news. -/
theorem learnHosts_hosts {c c' : ProxmoxVE} {names : List Json} {replace : Bool}
    (h : c.learnHosts names replace = .ok c') {host : String} (hin : host ∈ c'.hosts) :
    host ∈ c.hosts ∨ .str host ∈ names := by
  unfold ProxmoxVE.learnHosts at h
  rcases hcurrent : c.host with e | current
  · rw [hcurrent] at h
    contradiction
  · rw [hcurrent] at h
    cases h
    have hlisted : current ∈ c.hosts :=
      List.mem_of_getElem? (ProxmoxVE.host_eq_ok_iff.mp hcurrent)
    -- what is kept of the old list is part of it, and the host in use was listed
    have hkept : ∀ a, a ∈ (if replace = true then c.hosts.take 1 else c.hosts) → a ∈ c.hosts := by
      intro a ha
      split_ifs at ha
      · exact List.mem_of_mem_take ha
      · exact ha
    simp only [keepNew_eq] at hin
    split_ifs at hin
    all_goals
      simp only [List.mem_append, List.mem_singleton, mem_appendNew] at hin
      have hnames : host ∈ namesOf names → .str host ∈ names := mem_namesOf
      have hold := hkept host
      grind

/-- What a request that is no login carries of its client. -/
theorem buildRequest_shows {client : ProxmoxVE} {method path : String}
    {jsonData params : Option Dict} {timeout : Option ℚ} {request : HttpRequest}
    (h : buildRequest client method path jsonData params timeout = .ok request) :
    ∃ headers, client.auth.getHeaders = .ok headers ∧ request.ssl = client.verifySsl ∧
      request.data = none ∧
      request.headers =
        [("Accept", .text "application/json"), ("Connection", .text "keep-alive")] ++ headers ++
          if client.auth.getCookies.isEmpty then []
          else [("Cookie", .cookies client.auth.getCookies)] := by
  unfold buildRequest at h
  rcases hheaders : client.auth.getHeaders with e | headers
  · rw [hheaders] at h
    contradiction
  · rw [hheaders] at h
    cases h
    refine ⟨headers, rfl, rfl, rfl, ?_⟩
    dsimp only
    split_ifs
    · rw [List.append_nil]
    · rfl

/-- The authentication that the arguments ask for. -/
theorem authOf_cases {url : String} {auth : Auth} (h : ProxmoxVE.authOf args url = .ok auth) :
    (∃ password, args.tokenName = none ∧ args.password = some password ∧
      auth = .ticket {
        username := ProxmoxVE.strOf args.user, password := password
        otp := some (ProxmoxVE.boolOf args.otp), baseUrl := url
        verifySsl := args.verifySsl, timeout := args.timeout, service := args.service }) ∨
    ∃ tokenName, args.tokenName = some tokenName ∧
      auth = .token {
        username := ProxmoxVE.strOf args.user, tokenName := tokenName
        tokenValue := ProxmoxVE.strOf args.tokenValue
        verifySsl := args.verifySsl, timeout := args.timeout, service := args.service } := by
  unfold ProxmoxVE.authOf at h
  cases htoken : args.tokenName with
  | some tokenName =>
      rw [htoken] at h
      cases h
      exact .inr ⟨tokenName, rfl, rfl⟩
  | none =>
      cases hpassword : args.password with
      | some password =>
          rw [htoken, hpassword] at h
          cases h
          exact .inl ⟨password, rfl, rfl, rfl⟩
      | none =>
          rw [htoken, hpassword] at h
          contradiction

/-- The constructor takes over the option and the credentials. -/
theorem init_authOf {client : ProxmoxVE} (h : ProxmoxVE.init args = .ok client) :
    client.verifySsl = args.verifySsl ∧
      ∃ url, ProxmoxVE.authOf args url = .ok client.auth := by
  unfold ProxmoxVE.init at h
  rcases hport : ProxmoxVE.portOf args with e | port
  · rw [hport] at h
    contradiction
  · rcases hauth : ProxmoxVE.authOf args (apiUrl (ProxmoxVE.cleanHost args.host) port) with
      e | auth
    · simp only [hport, hauth, bind, Except.bind] at h
      contradiction
    · simp only [hport, hauth, bind, Except.bind, pure, Except.pure, Except.ok.injEq] at h
      subst h
      exact ⟨rfl, _, hauth⟩

/-- There is one service. -/
theorem lookupService_eq_ok {service : String} {entry : Service}
    (h : lookupService service = .ok entry) : service = "PVE" ∧ entry.tokenSeparator = "=" := by
  unfold lookupService services at h
  by_cases hname : service = "PVE"
  · subst hname
    cases h
    exact ⟨rfl, rfl⟩
  · have hnone : List.lookup service [("PVE",
        ({ defaultPort := defaultPvePort, tokenSeparator := "=" } : Service))] = none := by
      rw [List.lookup_cons, beq_eq_false_iff_ne.mpr hname]
      rfl
    rw [hnone] at h
    contradiction

/-- An exchange goes to a known host, with the verification of certificates that the client
was configured with. -/
def ReachesKnown (args : ProxmoxVE.Arguments) (text : Json → String) (calls : τ → SystemCall σ)
    (number : Nat) (e : Event τ Exchange Outcome Remark)
    (before : List (Event τ Exchange Outcome Remark)) : Prop :=
  ∀ i q, e = .sent i q → q.request.ssl = args.verifySsl ∧
    ∃ host path, KnownHost args text calls before host ∧ q.GoesTo number path host

/-- A URL is the one of a known host. -/
def OfKnown (args : ProxmoxVE.Arguments) (text : Json → String) (calls : τ → SystemCall σ)
    (number : Nat) (history : List (Event τ Exchange Outcome Remark)) (url : String) : Prop :=
  ∃ host, KnownHost args text calls history host ∧ url = apiUrl host number

/-- A URL of a known host stays one. -/
theorem OfKnown.mono {number : Nat} {url : String} (h : OfKnown args text calls number history url)
    (hsub : history ⊆ history') : OfKnown args text calls number history' url := by
  rcases h with ⟨host, hknown, hurl⟩
  exact ⟨host, hknown.mono hsub, hurl⟩

/-- What a client has of hosts: all names are known, and its URLs are made of them. -/
structure Steered (args : ProxmoxVE.Arguments) (text : Json → String) (calls : τ → SystemCall σ)
    (number : Nat) (w : World τ Machine Exchange Outcome Remark) : Prop where
  hosts : ∀ host ∈ w.state.client.hosts, KnownHost args text calls w.history host
  port : w.state.client.port = number
  verifySsl : w.state.client.verifySsl = args.verifySsl
  baseUrl : OfKnown args text calls number w.history w.state.client.baseUrl
  auth : ∀ auth, w.state.client.auth = .ticket auth →
    auth.verifySsl = args.verifySsl ∧ OfKnown args text calls number w.history auth.baseUrl
  sent : Along (ReachesKnown args text calls number) w.history

namespace Steered

variable {number : Nat} {w : World τ Machine Exchange Outcome Remark}

/-- An event that reaches a known host. -/
theorem log (h : Steered args text calls number w) {e : Event τ Exchange Outcome Remark}
    (he : ReachesKnown args text calls number e w.history) :
    Steered args text calls number (w.log e) where
  hosts host hin := (h.hosts host hin).mono (List.subset_cons_self _ _)
  port := h.port
  verifySsl := h.verifySsl
  baseUrl := h.baseUrl.mono (List.subset_cons_self _ _)
  auth auth hauth := ⟨(h.auth auth hauth).1, (h.auth auth hauth).2.mono (List.subset_cons_self _ _)⟩
  sent := ⟨he, h.sent⟩

/-- Only the client matters. -/
theorem ofClient (h : Steered args text calls number w) {m : Machine}
    (hclient : m.client = w.state.client) :
    Steered args text calls number { w with state := m } := by
  constructor
  · rw [hclient]
    exact h.hosts
  · rw [hclient]
    exact h.port
  · rw [hclient]
    exact h.verifySsl
  · rw [hclient]
    exact h.baseUrl
  · rw [hclient]
    exact h.auth
  · exact h.sent

/-- A login moves nothing. -/
theorem adopts (h : Steered args text calls number w) {m : Machine} (ha : Adopts w m) :
    Steered args text calls number { w with state := m } := by
  rcases ha.adopted with ⟨auth, auth', hauth, rfl, hadopted⟩ | rfl
  · refine ⟨h.hosts, h.port, h.verifySsl, h.baseUrl, fun auth'' hauth'' => ?_, h.sent⟩
    cases hauth''
    rw [hadopted.credentials]
    exact h.auth auth hauth
  · exact h

/-- {lit}`learn_hosts` brings known hosts only. -/
theorem hears (h : Steered args text calls number w) {i : τ} {names : List Json} {replace : Bool}
    {client : ProxmoxVE} (hnews : News text i (calls i) w.history names replace)
    (hlearn : w.state.client.learnHosts names replace = .ok client) :
    Steered args text calls number { w with state := { w.state with client := client } } := by
  have hsame : client.port = w.state.client.port ∧ client.verifySsl = w.state.client.verifySsl ∧
      client.baseUrl = w.state.client.baseUrl := by
    unfold ProxmoxVE.learnHosts at hlearn
    rcases hcurrent : w.state.client.host with e | current
    · rw [hcurrent] at hlearn
      contradiction
    · rw [hcurrent] at hlearn
      cases hlearn
      exact ⟨rfl, rfl, rfl⟩
  refine ⟨fun host hin => ?_, hsame.1.trans h.port, hsame.2.1.trans h.verifySsl, ?_, ?_, h.sent⟩
  · rcases learnHosts_hosts hlearn hin with hold | hnew
    · exact h.hosts host hold
    · exact hnews.known hnew
  · rw [hsame.2.2]
    exact h.baseUrl
  · intro auth hauth
    exact h.auth auth ((ProxmoxVE.learnHosts_auth hlearn).symm.trans hauth)

/-- A move goes to a host of the list. -/
theorem moves (h : Steered args text calls number w) {m : Machine} (hm : Moves w.state m) :
    Steered args text calls number { w with state := m } := by
  cases hm with
  | misses hnone => exact ⟨h.hosts, h.port, h.verifySsl, h.baseUrl, h.auth, h.sent⟩
  | @points index host hhost =>
      have hurl : OfKnown args text calls number w.history
          (apiUrl host w.state.client.port) :=
        ⟨host, h.hosts host (List.mem_of_getElem? hhost), by rw [h.port]⟩
      refine ⟨h.hosts, h.port, h.verifySsl, hurl, fun auth hauth => ?_, h.sent⟩
      simp only [Machine.placedAt_client, ProxmoxVE.placedAt_auth] at hauth
      cases hold : w.state.client.auth with
      | token auth =>
          rw [hold] at hauth
          contradiction
      | ticket auth =>
          rw [hold] at hauth
          cases hauth
          exact ⟨(h.auth auth hold).1, hurl⟩

/-- A login posts to a known host. -/
theorem posts (h : Steered args text calls number w) {auth : ProxmoxHTTPAuth} {purpose : Purpose}
    {data : Dict} (i : τ) (timeout : ℚ) (hauth : w.state.client.auth = .ticket auth)
    (hform : LoginForm auth purpose data) :
    Steered args text calls number
      (w.log (.sent i (ticketExchange purpose auth timeout data))) := by
  refine h.log fun i' q heq => ?_
  cases heq
  rcases h.auth auth hauth with ⟨hssl, host, hknown, hurl⟩
  refine ⟨hssl, host, "", hknown, ?_⟩
  have hgoes : auth.baseUrl ++ "/access/ticket" = apiUrl host number ++ "/access/ticket" := by
    rw [hurl]
  cases hform with
  | renewal => exact hgoes
  | password => exact hgoes
  | secondFactor otp otptype => exact hgoes

/-- So does everything else. -/
theorem attempts (h : Steered args text calls number w) {q : Exchange} (i : τ)
    (hattempt : Attempt w.state.client q) : Steered args text calls number (w.log (.sent i q)) := by
  refine h.log fun i' q' heq => ?_
  cases heq
  rcases h.baseUrl with ⟨host, hknown, hurl⟩
  cases hattempt with
  | @request method path jsonData params request hrequest =>
      rcases buildRequest_shows hrequest with ⟨headers, -, hssl, -⟩
      refine ⟨hssl.trans h.verifySsl, host, path, hknown, ?_⟩
      rw [Exchange.GoesTo, buildRequest_url hrequest, hurl]
      rfl
  | @probe candidate request hrequest =>
      rcases buildRequest_shows hrequest with ⟨headers, -, hssl, -⟩
      refine ⟨hssl.trans h.verifySsl, host, "version", hknown, ?_⟩
      rw [Exchange.GoesTo, buildRequest_url hrequest, hurl]
      rfl

/-- The constructor knows the configured host. -/
theorem init {client : ProxmoxVE} (hinit : ProxmoxVE.init args = .ok client) (monotonic : ℚ) :
    Steered args text calls client.port ⟨⟨client, monotonic⟩, []⟩ := by
  rcases init_authOf hinit with ⟨hssl, url, hauth⟩
  rcases ProxmoxVE.init_hosts hinit with ⟨hhosts, -, hurl, hticket⟩
  have hconfigured : OfKnown args text calls client.port []
      (apiUrl (ProxmoxVE.cleanHost args.host) client.port) := ⟨_, .configured, rfl⟩
  refine ⟨fun host hin => ?_, rfl, hssl, ?_, fun auth hauth' => ?_, trivial⟩
  · dsimp only at hin
    rw [hhosts, List.mem_singleton] at hin
    rw [hin]
    exact .configured
  · dsimp only
    rw [hurl]
    exact hconfigured
  · dsimp only at hauth'
    have hbase : auth.baseUrl = client.baseUrl := by
      rw [hauth'] at hticket
      exact hticket rfl
    constructor
    · rw [hauth'] at hauth
      rcases authOf_cases hauth with ⟨password, -, -, heq⟩ | ⟨tokenName, -, heq⟩
      · cases heq
        rfl
      · contradiction
    · rw [hbase, hurl]
      exact hconfigured

end Steered

/-- A pool of calls keeps to known hosts. -/
theorem conduct_steered (number : ℕ) :
    Conduct text calls (worldDiscipline (Steered args text calls number)) := by
  refine .ofInvariant (fun w e hw hinternal => hw.log ?_) (fun i w q r hw _ => hw.log ?_)
    (fun w m hw ha => hw.adopts ha)
    (fun i w auth purpose timeout data hw hauth hform _ => hw.posts i timeout hauth hform)
    (fun i w q hw hattempt => hw.attempts i hattempt)
    (fun i w names replace client hw hnews hlearn => hw.hears hnews hlearn)
    (fun w m hw hm => hw.moves hm)
  · rintro i q rfl
    exact hinternal.elim
  · intro i' q' heq
    contradiction

/-- Beside the calls nothing touches the client: the environment has the clock and what the
endpoints keep. -/
def SparesClient (_ : Config τ (σ × Machine) Exchange Outcome Exc Remark Unit) :
    Action τ (σ × Machine) Outcome → Prop
  | .environment f => ∀ s, (f s).2.client = s.2.client
  | _ => True

/-- In every run of any calls every exchange goes to a host that was known before it, with the
verification of certificates that was asked for: one that the client was configured with, that
a caller gave, or whose address the cluster has answered. -/
theorem exchanges_reachKnown [DecidableEq τ] {client : ProxmoxVE}
    (hinit : ProxmoxVE.init args = .ok client) (text : Json → String)
    (calls : τ → SystemCall σ) (s : σ) (monotonic : ℚ)
    {c : Config τ (σ × Machine) Exchange Outcome Exc Remark Unit}
    (hrun : Config.Reaches SparesClient
      (.initial (s, ⟨client, monotonic⟩) fun i => (calls i).run text) c) :
    Along (ReachesKnown args text calls client.port) c.world.history := by
  have hC : Conduct text calls (worldDiscipline (Steered args text calls client.port)) :=
    conduct_steered client.port
  have hkept := hC.kept (fun _ => trivial) (s := s) (Steered.init hinit monotonic) trivial
  refine (hkept.reaches (fun c f henv history hw => ?_) hrun).sent
  exact hw.ofClient (henv c.world.state)

/-- One task hears of another host, and the other moves the client there. -/
def newsAndMove {τ : Type} (first other : τ) : List (Action τ (Unit × Machine) Outcome) :=
  [.start first, .resume first (statusWith "192.0.2.2"), .start other, .lock other,
    .resume other (replyOf true)]

/-- Nothing but calls act in the schedule. -/
theorem newsAndMove_sparesClient
    (c : Config (Fin 2) (Unit × Machine) Exchange Outcome Exc Remark Unit) :
    ∀ a ∈ newsAndMove 0 1, SparesClient c a := by
  simp [newsAndMove, SparesClient]

/-- A client hears of a host from the cluster and asks it. -/
theorem exchanges_reachKnown_witness :
    ∃ c : Config (Fin 2) (Unit × Machine) Exchange Outcome Exc Remark Unit,
      c.world.state.2.client.host = .ok "192.0.2.2" ∧
        Along (ReachesKnown (tokenFor "pve") strOnly
          (fun i => .host (learnAndMove i) : Fin 2 → SystemCall Unit) defaultPvePort)
          c.world.history := by
  obtain ⟨c, hrun, hhost⟩ : ∃ c, Config.run
      (.initial ((), ⟨constructedFor "pve", 0⟩)
        fun i => (SystemCall.host (σ := Unit) (learnAndMove i)).run strOnly)
        (newsAndMove 0 1) = some c ∧
      c.world.state.2.client.host = .ok "192.0.2.2" :=
    ⟨_, by and_intros <;> with_unfolding_all rfl⟩
  exact ⟨c, hhost, exchanges_reachKnown (init_tokenFor "pve") strOnly _ () 0
    (Config.reaches_of_run newsAndMove_sparesClient hrun)⟩

/-! ## Credentials -/

/-- What serves as a ticket: nothing as yet, or what a login was answered. -/
inductive Issued (history : List (Event τ Exchange Outcome Remark)) (key : String) :
    Json → Prop
  | nothing : Issued history key (.str "")
  | login {data value : Json} (hdata : Offered history data)
      (h : data.field? key = some value) : Issued history key value

/-- What was issued stays issued. -/
theorem Issued.mono {key : String} {value : Json} (h : Issued history key value)
    (hsub : history ⊆ history') : Issued history' key value := by
  cases h with
  | nothing => exact .nothing
  | login hdata hvalue => exact .login (hdata.mono hsub) hvalue

/-- An authentication with the name and password that were given, and tickets that were
issued. -/
structure Session (args : ProxmoxVE.Arguments)
    (history : List (Event τ Exchange Outcome Remark)) (auth : ProxmoxHTTPAuth) : Prop where
  tokenName : args.tokenName = none
  password : args.password = some auth.password
  username : auth.username = ProxmoxVE.strOf args.user
  service : auth.service = args.service
  ticket : Issued history "ticket" auth.pveAuthTicket
  csrf : Issued history "CSRFPreventionToken" auth.csrfPreventionToken

/-- A session stays what it is. -/
theorem Session.mono {auth : ProxmoxHTTPAuth} (h : Session args history auth)
    (hsub : history ⊆ history') : Session args history' auth :=
  { h with ticket := h.ticket.mono hsub, csrf := h.csrf.mono hsub }

/-- The authentication of a client with a token. -/
structure HasToken (args : ProxmoxVE.Arguments) (auth : ProxmoxHTTPApiTokenAuth) : Prop where
  tokenName : args.tokenName = some auth.tokenName
  tokenValue : auth.tokenValue = ProxmoxVE.strOf args.tokenValue
  username : auth.username = ProxmoxVE.strOf args.user

/-- What an exchange shows of credentials: a login its form, with neither headers nor
parameters; all else the session or the token in its headers, and no form. -/
inductive Shows (args : ProxmoxVE.Arguments)
    (before : List (Event τ Exchange Outcome Remark)) : Exchange → Prop
  | login {auth : ProxmoxHTTPAuth} {purpose : Purpose} {timeout : ℚ} {data : Dict}
      (h : Session args before auth) (hform : LoginForm auth purpose data) :
      Shows args before (ticketExchange purpose auth timeout data)
  | session {q : Exchange} {ticket csrf : Json} (hname : args.tokenName = none)
      (hlogin : q.purpose.isLogin = false) (hdata : q.request.data = none)
      (hticket : Issued before "ticket" ticket) (hcsrf : Issued before "CSRFPreventionToken" csrf)
      (hheaders : q.request.headers =
        [("Accept", .text "application/json"), ("Connection", .text "keep-alive"),
          ("CSRFPreventionToken", .value csrf),
          ("Cookie", .cookies [(args.service ++ "AuthCookie", ticket)])]) :
      Shows args before q
  | token {q : Exchange} {tokenName : String} (hname : args.tokenName = some tokenName)
      (hlogin : q.purpose.isLogin = false) (hdata : q.request.data = none)
      (hheaders : q.request.headers =
        [("Accept", .text "application/json"), ("Connection", .text "keep-alive"),
          ("Authorization", .text ("PVEAPIToken=" ++ ProxmoxVE.strOf args.user ++ "!" ++
            tokenName ++ "=" ++ ProxmoxVE.strOf args.tokenValue))]) :
      Shows args before q

/-- An exchange shows what it may. -/
def ShowsIssued (args : ProxmoxVE.Arguments) (e : Event τ Exchange Outcome Remark)
    (before : List (Event τ Exchange Outcome Remark)) : Prop :=
  ∀ i q, e = .sent i q → Shows args before q

/-- A client uses the credentials it was given. -/
structure Entrusted (args : ProxmoxVE.Arguments) (w : World τ Machine Exchange Outcome Remark) :
    Prop where
  auth : (∃ auth, w.state.client.auth = .ticket auth ∧ Session args w.history auth) ∨
    ∃ auth, w.state.client.auth = .token auth ∧ HasToken args auth
  sent : Along (ShowsIssued args) w.history

namespace Entrusted

variable {w : World τ Machine Exchange Outcome Remark}

/-- The session of a client is one that was issued. -/
theorem session (h : Entrusted args w) {auth : ProxmoxHTTPAuth}
    (hauth : w.state.client.auth = .ticket auth) : Session args w.history auth := by
  rcases h.auth with ⟨auth', hauth', hsession⟩ | ⟨auth', hauth', -⟩
  · rw [hauth] at hauth'
    cases hauth'
    exact hsession
  · rw [hauth] at hauth'
    contradiction

/-- What shows issued credentials may be logged. -/
theorem log (h : Entrusted args w) {e : Event τ Exchange Outcome Remark}
    (he : ShowsIssued args e w.history) : Entrusted args (w.log e) where
  auth := by
    rcases h.auth with ⟨auth, hauth, hsession⟩ | htoken
    · exact .inl ⟨auth, hauth, hsession.mono (List.subset_cons_self _ _)⟩
    · exact .inr htoken
  sent := ⟨he, h.sent⟩

/-- The address of the login endpoint is none of the credentials. -/
theorem ofAuth (h : Entrusted args w) {m : Machine}
    (hauth : (∃ url, m.client.auth = w.state.client.auth.setBaseUrl url) ∨
      m.client.auth = w.state.client.auth) : Entrusted args { w with state := m } := by
  refine ⟨?_, h.sent⟩
  rcases hauth with ⟨url, hauth⟩ | hauth
  · rcases h.auth with ⟨auth, hold, hsession⟩ | ⟨auth, hold, htoken⟩
    · refine .inl ⟨_, by rw [hauth, hold]; rfl, ?_⟩
      exact { hsession with }
    · refine .inr ⟨_, by rw [hauth, hold]; rfl, ?_⟩
      exact { htoken with }
  · dsimp only
    rw [hauth]
    exact h.auth

/-- A login adopts what it was issued. -/
theorem adopts (h : Entrusted args w) {m : Machine} (ha : Adopts w m) :
    Entrusted args { w with state := m } := by
  rcases ha.adopted with ⟨auth, auth', hauth, rfl, hadopted⟩ | rfl
  · have hsession := h.session hauth
    refine ⟨.inl ⟨auth', rfl, ?_⟩, h.sent⟩
    constructor
    · exact hsession.tokenName
    · rw [hadopted.credentials]
      exact hsession.password
    · rw [hadopted.credentials]
      exact hsession.username
    · rw [hadopted.credentials]
      exact hsession.service
    · rcases hadopted.ticket with hsame | ⟨data, hdata, hticket⟩
      · rw [hsame]
        exact hsession.ticket
      · exact .login hdata hticket
    · rcases hadopted.csrf with hsame | ⟨data, hdata, hcsrf⟩
      · rw [hsame]
        exact hsession.csrf
      · exact .login hdata hcsrf
  · exact h

/-- Whatever is built for a request shows the session or the token. -/
theorem shows (h : Entrusted args w) {purpose : Purpose} {method path : String}
    {jsonData params : Option Dict} {timeout : Option ℚ} {request : HttpRequest}
    (hlogin : purpose.isLogin = false)
    (hrequest : buildRequest w.state.client method path jsonData params timeout = .ok request) :
    Shows args w.history ⟨purpose, request⟩ := by
  rcases buildRequest_shows hrequest with ⟨headers, hheaders, -, hdata, hall⟩
  rcases h.auth with ⟨auth, hauth, hsession⟩ | ⟨auth, hauth, htoken⟩
  · rw [hauth] at hheaders hall
    cases hheaders
    refine .session hsession.tokenName hlogin hdata hsession.ticket hsession.csrf ?_
    rw [← hsession.service]
    exact hall
  · rw [hauth] at hheaders hall
    simp only [Auth.getHeaders] at hheaders
    rcases hservice : lookupService auth.service with e | entry
    · rw [hservice] at hheaders
      contradiction
    · rw [hservice] at hheaders
      cases hheaders
      rcases lookupService_eq_ok hservice with ⟨hname, hseparator⟩
      refine .token htoken.tokenName hlogin hdata ?_
      rw [← htoken.username, ← htoken.tokenValue]
      rw [hname, hseparator] at hall
      exact hall

/-- The constructor takes over what it is given. -/
theorem init {client : ProxmoxVE} (hinit : ProxmoxVE.init args = .ok client) (monotonic : ℚ) :
    Entrusted (τ := τ) args ⟨⟨client, monotonic⟩, []⟩ := by
  rcases init_authOf hinit with ⟨-, url, hauth⟩
  refine ⟨?_, trivial⟩
  rcases authOf_cases hauth with ⟨password, hname, hpassword, heq⟩ | ⟨tokenName, hname, heq⟩
  · exact .inl ⟨_, heq, ⟨hname, hpassword, rfl, rfl, .nothing, .nothing⟩⟩
  · exact .inr ⟨_, heq, ⟨hname, rfl, rfl⟩⟩

end Entrusted

/-- A pool of calls uses the credentials it was given. -/
theorem conduct_entrusted : Conduct text calls (worldDiscipline (Entrusted args)) := by
  refine .ofInvariant (fun w e hw hinternal => hw.log ?_) (fun i w q r hw _ => hw.log ?_)
    (fun w m hw ha => hw.adopts ha)
    (fun i w auth purpose timeout data hw hauth hform _ => hw.log ?_)
    (fun i w q hw hattempt => hw.log ?_)
    (fun i w names replace client hw hnews hlearn =>
      hw.ofAuth (.inr (ProxmoxVE.learnHosts_auth hlearn)))
    (fun w m hw hm => ?_)
  · rintro i q rfl
    exact hinternal.elim
  · intro i' q' heq
    contradiction
  · intro i' q heq
    cases heq
    exact .login (hw.session hauth) hform
  · intro i' q' heq
    cases heq
    cases hattempt with
    | request hrequest => exact hw.shows rfl hrequest
    | probe hrequest => exact hw.shows rfl hrequest
  · cases hm with
    | @points index host hhost => exact hw.ofAuth (.inl ⟨_, rfl⟩)
    | misses hnone => exact hw.ofAuth (.inr rfl)

/-- In every run of any calls the password goes out in the form of a login alone, under the
name that was given; every other exchange shows in its headers the token, or a session whose
tickets are still empty or were handed out in an answer to an earlier login. -/
theorem exchanges_showIssued [DecidableEq τ] {client : ProxmoxVE}
    (hinit : ProxmoxVE.init args = .ok client) (text : Json → String)
    (calls : τ → SystemCall σ) (s : σ) (monotonic : ℚ)
    {c : Config τ (σ × Machine) Exchange Outcome Exc Remark Unit}
    (hrun : Config.Reaches SparesClient
      (.initial (s, ⟨client, monotonic⟩) fun i => (calls i).run text) c) :
    Along (ShowsIssued args) c.world.history := by
  have hC : Conduct text calls (worldDiscipline (Entrusted args)) := conduct_entrusted
  have hkept := hC.kept (fun _ => trivial) (s := s) (Entrusted.init hinit monotonic) trivial
  refine (hkept.reaches (fun c f henv history hw => ?_) hrun).sent
  have hclient : (f c.world.state).2.client = c.world.state.2.client := henv c.world.state
  exact hw.ofAuth (.inr (by rw [hclient]))

/-- Credentials with a password. -/
def passwordFor (host : String) : ProxmoxVE.Arguments where
  host := host
  user := some "root@pam"
  password := some "secret"

/-- The client made of them. -/
def unloggedAt (host : String) : ProxmoxVE :=
  let url := apiUrl (ProxmoxVE.cleanHost host) defaultPvePort
  { auth := .ticket {
      username := "root@pam", password := "secret", otp := some false, baseUrl := url
      verifySsl := .flag true }
    baseUrl := url, hosts := [ProxmoxVE.cleanHost host], hostIndex := 0, port := defaultPvePort
    verifySsl := .flag true, timeout := 5 }

/-- One task logs in, and the other asks for the nodes. -/
def loginAndAsk : Fin 2 → SystemCall Unit :=
  ![.host .asyncInit, .host (.client (.request { method := "GET", path := "nodes" }))]

def loginAndAskSchedule {τ : Type} (first other : τ) : List (Action τ (Unit × Machine) Outcome) :=
  [.start first, .resume first loginReply, .start other]

/-- Nothing but calls act in the schedule. -/
theorem loginAndAskSchedule_sparesClient
    (c : Config (Fin 2) (Unit × Machine) Exchange Outcome Exc Remark Unit) :
    ∀ a ∈ loginAndAskSchedule 0 1, SparesClient c a := by
  simp [loginAndAskSchedule, SparesClient]

/-- A request that shows the ticket of a login before it. -/
theorem exchanges_showIssued_witness :
    ∃ (q : Exchange) (before : List (Event (Fin 2) Exchange Outcome Remark)),
      q.request.headers.getLast?.map Prod.fst = some "Cookie" ∧ before.length = 2 ∧
        Shows (passwordFor "pve") before q := by
  obtain ⟨c, q, before, hrun, hhistory, hcookie, hlength⟩ : ∃ c q before, Config.run
      (.initial ((), ⟨unloggedAt "pve", 0⟩) fun i => (loginAndAsk i).run strOnly)
        (loginAndAskSchedule 0 1) = some c ∧ c.world.history = .sent 1 q :: before ∧
      q.request.headers.getLast?.map Prod.fst = some "Cookie" ∧ before.length = 2 :=
    ⟨_, _, _, by and_intros <;> with_unfolding_all rfl⟩
  have hshown : Along (ShowsIssued (passwordFor "pve")) c.world.history :=
    exchanges_showIssued rfl strOnly loginAndAsk () 0
      (Config.reaches_of_run loginAndAskSchedule_sparesClient hrun)
  rw [hhistory] at hshown
  exact ⟨q, before, hcookie, hlength, hshown.1 1 q rfl⟩

end Provenance

end AioProxmox
