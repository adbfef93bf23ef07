import AioProxmox.Client.LoginRules
import AioProxmox.Client.Renewals
import AioProxmox.Client.Repetition
import AioProxmox.Cluster.Commands
import AioProxmox.Coroutine.Interface

/-!
# Cluster - commands on the wire

The commands over the client they call: the call an endpoint writes is bound to the
parameters of {lit}`ProxmoxVE.request`, and the request runs.  The endpoint classes hold
the client without a type, and a keyword that {lit}`request` does not take is refused by
the call itself, before anything is sent.

Main results:

- Definition {lit}`ApiCall.serve`: a call, as the client takes it.
- Definition {lit}`Command.OnTheWire`: the command returns, and its one request carries what
  it has built, under names the schema lists.
- Theorem {lit}`exec_request_answered`: a request that is answered 200.
- Theorem {lit}`Command.onTheWire_iff`: the commands that reach the wire.
-/

namespace AioProxmox

open Coroutine

/-! ## The client's side of a call -/

/-- The keywords of {lit}`ProxmoxVE.request`. -/
def requestKeywords : List String := ["json_data", "params"]

/-- The arguments {lit}`json_data` and {lit}`params` of a call, if it has no others. -/
def ApiCall.arguments (call : ApiCall) : Except Exc (Option Dict × Option Dict) :=
  match call.keywords.find? (fun keyword => keyword.1 ∉ requestKeywords) with
  | some keyword =>
      .error (.typeError
        ("ProxmoxVE.request() got an unexpected keyword argument '" ++ keyword.1 ++ "'"))
  | none => .ok (call.keywords.lookup "json_data", call.keywords.lookup "params")

/-- A call, as the client takes it. -/
def ApiCall.serve (call : ApiCall) : Prog Json := do
  let arguments ← Co.ofExcept call.arguments
  request call.method call.path arguments.1 arguments.2

section Serve

variable {τ : Type} {E : Surroundings Machine Outcome} {i : τ} {n : Nat}
  {w : World τ Machine Exchange Outcome Remark} {call : ApiCall}

/-- A call whose keywords the client takes is a request. -/
theorem exec_serve {arguments : Option Dict × Option Dict}
    (h : call.arguments = .ok arguments) :
    call.serve.exec E i n w =
      (request call.method call.path arguments.1 arguments.2).exec E i n w := by
  unfold ApiCall.serve
  rw [h]
  rfl

/-- Any other call raises. -/
theorem exec_serve_refused {e : Exc} (h : call.arguments = .error e) :
    (call.serve.exec E i n w).result = .error e := by
  unfold ApiCall.serve
  rw [h]
  rfl

end Serve

/-! ## What the schema lists -/

/-- The parameters of {lit}`PUT /nodes/\x7bnode\x7d/qemu/\x7bvmid\x7d/config`. -/
def qemuConfigParameters : List String :=
  ["acpi", "affinity", "agent", "allow-ksm", "amd-sev", "arch", "args", "audio0", "autostart",
    "balloon", "bios", "boot", "bootdisk", "cdrom", "cicustom", "cipassword", "citype",
    "ciupgrade", "ciuser", "cores", "cpu", "cpulimit", "cpuunits", "delete", "description",
    "digest", "efidisk0", "force", "freeze", "hookscript", "hostpci[n]", "hotplug", "hugepages",
    "ide[n]", "intel-tdx", "ipconfig[n]", "ivshmem", "keephugepages", "keyboard", "kvm",
    "localtime", "lock", "machine", "memory", "migrate_downtime", "migrate_speed", "name",
    "nameserver", "net[n]", "node", "numa", "numa[n]", "onboot", "ostype", "parallel[n]",
    "protection", "reboot", "revert", "rng0", "sata[n]", "scsi[n]", "scsihw", "searchdomain",
    "serial[n]", "shares", "skiplock", "smbios1", "smp", "sockets", "spice_enhancements",
    "sshkeys", "startdate", "startup", "tablet", "tags", "tdf", "template", "tpmstate0",
    "unused[n]", "usb[n]", "vcpus", "vga", "virtio[n]", "virtiofs[n]", "vmgenid", "vmid",
    "vmstatestorage", "watchdog"]

/-- The parameters of {lit}`PUT /nodes/\x7bnode\x7d/lxc/\x7bvmid\x7d/config`. -/
def lxcConfigParameters : List String :=
  ["arch", "cmode", "console", "cores", "cpulimit", "cpuunits", "debug", "delete", "description",
    "dev[n]", "digest", "entrypoint", "env", "features", "hookscript", "hostname", "lock",
    "memory", "mp[n]", "nameserver", "net[n]", "node", "onboot", "ostype", "protection",
    "revert", "rootfs", "searchdomain", "startup", "swap", "tags", "template", "timezone", "tty",
    "unprivileged", "unused[n]", "vmid"]

namespace Command

/-- The parameters that {lit}`schema/pve_api.json` lists for the route and the method of a
command that has a fixed set of them. -/
def schemaParameters : Command → Option (List String)
  | nodeStatus .. => some ["command", "node"]
  | qemuSnapshot .. => some ["description", "node", "snapname", "vmid", "vmstate"]
  | lxcSnapshot .. => some ["description", "node", "snapname", "vmid"]
  | hibernate .. => some ["node", "skiplock", "statestorage", "todisk", "vmid"]
  | qemuUnlock .. => some qemuConfigParameters
  | lxcUnlock .. => some lxcConfigParameters
  | disarmHa .. => some ["resource-mode"]
  | _ => none

/-- The command returns; besides the posts of a login, one request was sent, with the
command's method to its path, the parameters it has built and no others; and where these are
a fixed set, the schema lists their names. -/
structure OnTheWire {τ : Type} (repr : Json → String) (c : Command) (client : ProxmoxVE)
    (ending : Ending τ (ClusterView × Machine) Exchange Outcome Exc Remark Json) : Prop where
  returned : ∃ value, ending.result = .ok value
  sent : ∃ logins q parameters, ending.world.sends = logins ++ [q] ∧
    (∀ post ∈ logins, post.purpose.isLogin = true) ∧ q.purpose = .request ∧
    q.request.method = c.method ∧ q.request.url = addressOf client.baseUrl c.path ∧
    c.parameters repr = .ok parameters ∧ q.request.json.getD [] = parameters ∧
    q.request.query = none ∧
    ∀ names, c.schemaParameters = some names → ∀ entry ∈ parameters, entry.1 ∈ names

end Command

/-! ## A request that is answered -/

/-- The host answers everything 200, with JSON. -/
def Answers200 (E : Surroundings Machine Outcome) : Prop :=
  ∀ n, ∃ response, E.reply n = .ok response ∧ response.status = 200 ∧
    ∃ payload, response.json = .ok payload

section Requests

variable {τ : Type} {E : Surroundings Machine Outcome} {i : τ} {method path : String}
  {jsonData params : Option Dict} {m : Machine}

/-- An answer 200 is read. -/
theorem readResponse_of_answers200 (hanswers : Answers200 E) (n : Nat) (path : String) :
    ∃ value, (E.reply n >>= readResponse path) = .ok value := by
  rcases hanswers n with ⟨response, hreply, hstatus, payload, hpayload⟩
  rw [hreply]
  change ∃ value, readResponse path response = .ok value
  unfold readResponse
  rw [if_pos (by simp [hstatus]), hpayload]
  cases payload <;> exact ⟨_, rfl⟩

/-- What a login sends is posts of a login. -/
theorem isLogin_of_ofLogin {w : World τ Machine Exchange Outcome Remark}
    (h : ∀ e ∈ w.history, ofLogin e) : ∀ q ∈ w.sends, q.purpose.isLogin = true := by
  intro q hq
  rcases World.mem_sends.mp hq with ⟨j, hsent⟩
  rcases h _ hsent with hpurpose | ⟨password, hpurpose⟩
  · rw [hpurpose]
    rfl
  · rw [hpurpose]
    rfl

/-- A renewal that is accepted ends the first stage of a request, on the host in use. -/
theorem renewal_accepted (hE : Quiet E) (hin : m.client.InRange)
    (hlogin : (checkAndRefresh.exec E i 0 ⟨m, []⟩).result = .ok ()) :
    ∃ n₁ w₁ host, renewalStage.exec E i 0 ⟨m, []⟩ = ⟨.ok (), n₁, w₁⟩ ∧
      w₁.state.client.host = .ok host ∧ w₁.state.client.baseUrl = m.client.baseUrl ∧
      w₁.state.client.auth.headersError = m.client.auth.headersError ∧
      ∀ q ∈ w₁.sends, q.purpose.isLogin = true := by
  have hframe := checkAndRefresh_keeps (i := i) hE 0 ⟨m, []⟩
  rcases login_leaves.exec E 0 (⟨m, []⟩ : World τ Machine Exchange Outcome Remark) with
    ⟨new, hnew, hall⟩
  rcases hrenew : checkAndRefresh.exec E i 0 ⟨m, []⟩ with ⟨r, n₁, w₁⟩
  rw [hrenew] at hframe hnew hlogin
  simp only at hlogin
  subst hlogin
  rcases (inRange_of_loginFrame hframe hin).host with ⟨host, hhost⟩
  have hclient : w₁.state.client.withoutTokens = m.client.withoutTokens := hframe
  refine ⟨n₁, w₁, host, Co.exec_tryCatch_ok hrenew _, hhost, ?_, ?_, ?_⟩
  · have hbase : w₁.state.client.withoutTokens.baseUrl = m.client.withoutTokens.baseUrl :=
      congrArg ProxmoxVE.baseUrl hclient
    exact hbase
  · exact congrArg Fixed.headersError (fixed_of_loginFrame _ _ hframe)
  · refine isLogin_of_ofLogin ?_
    rw [List.append_nil] at hnew
    rw [hnew]
    exact hall

/-- A request whose headers can be built, on a host that answers 200: the posts of a login,
if one is due, and the request. -/
theorem exec_request_answered (method path : String) (jsonData params : Option Dict)
    (hE : Quiet E) (hanswers : Answers200 E) (hin : m.client.InRange)
    (hlogin : (checkAndRefresh.exec E i 0 ⟨m, []⟩).result = .ok ())
    (hheaders : m.client.auth.headersError = none) :
    ∃ value n' w' logins q,
      (request method path jsonData params).exec E i 0 ⟨m, []⟩ = ⟨.ok value, n', w'⟩ ∧
      w'.sends = logins ++ [q] ∧ (∀ post ∈ logins, post.purpose.isLogin = true) ∧
      q.purpose = .request ∧ Carries method path jsonData params q ∧
      q.request.url = addressOf m.client.baseUrl path := by
  rcases renewal_accepted hE hin hlogin with
    ⟨n₁, w₁, host, hrenew, hhost, hbase, hsame, hposts⟩
  rcases buildRequest_carries .request method path jsonData params none (hsame.trans hheaders)
    with ⟨built, hbuilt, hcarries⟩
  rcases readResponse_of_answers200 hanswers n₁ path with ⟨value, hvalue⟩
  have hsend : (send method path jsonData params).exec E i n₁ w₁ =
      ⟨.ok value, n₁ + 1, exchanged E i ⟨.request, built⟩ n₁ w₁⟩ := by
    unfold send
    rw [exec_requestOnce, hbuilt]
    simp only [hvalue]
    rfl
  refine ⟨value, n₁ + 1, exchanged E i ⟨.request, built⟩ n₁ w₁, w₁.sends, ⟨.request, built⟩,
    ?_, ?_, hposts, rfl, hcarries, ?_⟩
  · rw [exec_request_renewed hrenew hhost]
    exact Co.exec_tryCatch_ok hsend _
  · simp [exchanged, World.sends]
  · rw [buildRequest_url hbuilt, hbase]

/-- A request whose headers cannot be built raises. -/
theorem exec_request_headerless (hE : Quiet E) (hin : m.client.InRange)
    (hlogin : (checkAndRefresh.exec E i 0 ⟨m, []⟩).result = .ok ()) {e : Exc}
    (hheaders : m.client.auth.headersError = some e) :
    ((request method path jsonData params).exec E i 0 ⟨m, []⟩).result = .error e := by
  rcases renewal_accepted hE hin hlogin with ⟨n₁, w₁, host, hrenew, hhost, -, hsame, -⟩
  have hsend : (send method path jsonData params).exec E i n₁ w₁ = ⟨.error e, n₁, w₁⟩ :=
    exec_attempt_error _ _ _ _ _ _ (hsame.trans hheaders)
  rcases (Auth.headersError_keyError hheaders).2 with ⟨key, rfl⟩
  rw [exec_request_failed hrenew hhost hsend (by simp) rfl]

/-- What a host that answers 200 makes a renewal raise is of the login itself: the request
raises it too, and looks for no other host. -/
theorem exec_request_unrenewed (hanswers : Answers200 E) {e : Exc}
    (hlogin : (checkAndRefresh.exec E i 0 ⟨m, []⟩).result = .error e) :
    ((request method path jsonData params).exec E i 0 ⟨m, []⟩).result = .error e := by
  have hraises : Co.Raises (fun _ => ExchangeErrors NotLost) NotLost checkAndRefresh :=
    checkAndRefresh_raises notLost_loginErrors fun _ _ h => h
  have hkept : ∀ q r, .got i q r ∈ (checkAndRefresh.exec E i 0 ⟨m, []⟩).world.history →
      ExchangeErrors NotLost r := by
    intro q r hgot
    rcases Co.exec_got hgot with hold | ⟨k, rfl⟩
    · contradiction
    · rcases hanswers k with ⟨response, hreply, -, payload, hpayload⟩
      rw [hreply]
      refine ⟨fun e he => by contradiction, fun response' e hr he => ?_⟩
      cases hr
      rw [hpayload] at he
      contradiction
  have hlost : e.isLostHost = false := hraises.exec hkept hlogin
  rcases hrenew : checkAndRefresh.exec E i 0 ⟨m, []⟩ with ⟨r, n₁, w₁⟩
  rw [hrenew] at hlogin
  simp only at hlogin
  subst hlogin
  have hstage : renewalStage.exec E i 0 ⟨m, []⟩ = ⟨.error e, n₁, w₁⟩ := by
    unfold renewalStage
    rw [Co.exec_tryCatch_error hrenew]
    unfold renewElsewhere
    rw [if_neg (by simp [hlost])]
    rfl
  rw [request_eq, Co.exec_bind_error hstage]

end Requests

/-! ## The commands -/

namespace Command

section Commands

variable {τ : Type} {E : Surroundings Machine Outcome} {i : τ} {m : Machine}

/-- The names of a fixed set of parameters are listed, if the command is no snapshot. -/
theorem schema_lists {repr : Json → String} {c : Command} {parameters : Dict}
    (hplain : c.isSnapshot = false) (hparameters : c.parameters repr = .ok parameters) :
    ∀ names, c.schemaParameters = some names → ∀ entry ∈ parameters, entry.1 ∈ names := by
  intro names hnames entry hentry
  cases c with
  | nodeStatus command node =>
      cases hnames
      cases hparameters
      simp_all
  | qemuSnapshot => contradiction
  | lxcSnapshot => contradiction
  | hibernate node vmid =>
      cases hnames
      cases hparameters
      simp_all
  | qemuUnlock node vmid =>
      cases hnames
      cases hparameters
      simp only [List.mem_cons, List.not_mem_nil, or_false] at hentry
      rcases hentry with rfl | rfl
      · simp [qemuConfigParameters]
      · simp [qemuConfigParameters]
  | lxcUnlock node vmid =>
      cases hnames
      cases hparameters
      simp only [List.mem_cons, List.not_mem_nil, or_false] at hentry
      subst hentry
      simp [lxcConfigParameters]
  | disarmHa resourceMode =>
      cases hnames
      change disarmPayload repr resourceMode = .ok parameters at hparameters
      unfold disarmPayload at hparameters
      split_ifs at hparameters
      cases hparameters
      simp_all
  | _ => contradiction

/-- The client takes the call of a command that is no snapshot. -/
theorem arguments_call {c : Command} (hplain : c.isSnapshot = false) (payload : Dict) :
    ∃ jsonData, (c.call payload).arguments = .ok (jsonData, none) ∧
      (c = .armHa ∧ jsonData = none ∨ jsonData = some payload) := by
  cases c with
  | qemuSnapshot => contradiction
  | lxcSnapshot => contradiction
  | armHa => exact ⟨none, rfl, .inl ⟨rfl, rfl⟩⟩
  | _ => exact ⟨some payload, rfl, .inr rfl⟩

/-- It refuses that of a snapshot. -/
theorem arguments_snapshot {c : Command} (hsnapshot : c.isSnapshot = true) (payload : Dict) :
    (c.call payload).arguments = .error
      (.typeError "ProxmoxVE.request() got an unexpected keyword argument 'data'") := by
  cases c with
  | qemuSnapshot => rfl
  | lxcSnapshot => rfl
  | _ => contradiction

/-- A command posts or puts. -/
theorem method_eq (c : Command) : c.method = "POST" ∨ c.method = "PUT" := by
  cases c with
  | qemuUnlock => exact .inr rfl
  | lxcUnlock => exact .inr rfl
  | _ => exact .inl rfl

/-- No command is a method whose parameters go into the query. -/
theorem sendsQuery_method (c : Command) : sendsQuery c.method = false := by
  rcases c.method_eq with hpost | hput
  · rw [hpost]
    decide +kernel
  · rw [hput]
    decide +kernel

/-- A command that refuses its arguments raises. -/
theorem exec_run_refused (text : Json → String) {repr : Json → String} {c : Command}
    (during : Nat → ClusterView → ClusterView) (view : ClusterView) {e : Exc}
    (hparameters : c.parameters repr = .error e) :
    (((c.run text repr).servedBy ApiCall.serve).exec (E.beside during) i 0 ⟨(view, m), []⟩).result =
      .error e := by
  rw [run_eq, hparameters]
  rfl

/-- Any other command runs as its call. -/
theorem exec_run_serve (text : Json → String) {repr : Json → String} {c : Command}
    (during : Nat → ClusterView → ClusterView) (view : ClusterView) {payload : Dict}
    (hparameters : c.parameters repr = .ok payload) :
    let ending := ((c.run text repr).servedBy ApiCall.serve).exec (E.beside during) i 0
      ⟨(view, m), []⟩
    let served := (c.call payload).serve.exec E i 0 ⟨m, []⟩
    ending.result = served.result.map (c.wrap text) ∧
      ending.world.sends = served.world.sends := by
  have hrun : c.run text repr =
      (Co.await (c.call payload)).bind fun raw => .done (.ok (c.wrap text raw)) := by
    rw [run_eq, hparameters]
    rfl
  rcases Co.exec_servedBy_await i 0 during E ApiCall.serve (c.call payload) (c.wrap text)
    (⟨(view, m), []⟩ : World τ (ClusterView × Machine) Exchange Outcome Remark) with
    ⟨hresult, hhistory⟩
  rw [hrun]
  refine ⟨hresult, ?_⟩
  unfold World.sends
  rw [hhistory]
  rfl

/-- A request that carries the arguments of a command has its parameters as its body. -/
theorem carries_parameters {repr : Json → String} {c : Command} {payload : Dict}
    {jsonData : Option Dict} {q : Exchange} (hparameters : c.parameters repr = .ok payload)
    (hdata : c = .armHa ∧ jsonData = none ∨ jsonData = some payload)
    (hcarries : Carries c.method c.path jsonData none q) :
    q.request.json.getD [] = payload ∧ q.request.query = none := by
  rw [hcarries.sameJson, hcarries.sameQuery]
  unfold requestJson requestQuery
  simp only [sendsQuery_method, Bool.false_eq_true, if_false, and_true]
  rcases hdata with ⟨rfl, rfl⟩ | rfl
  · cases hparameters
    rfl
  · split_ifs with hempty
    · exact (List.isEmpty_iff.mp hempty).symm
    · rfl

end Commands

/-- A command reaches a host that answers 200 with its parameters exactly if it is no
snapshot, its arguments are not refused, the headers can be built, and the host accepts a
renewal that is due. -/
theorem onTheWire_iff (text repr : Json → String) (c : Command) {τ : Type} (i : τ)
    {E : Surroundings Machine Outcome} (hE : Quiet E) (hanswers : Answers200 E)
    (during : Nat → ClusterView → ClusterView) (view : ClusterView) {m : Machine}
    (hin : m.client.InRange) :
    OnTheWire repr c m.client
        (((c.run text repr).servedBy ApiCall.serve).exec (E.beside during) i 0 ⟨(view, m), []⟩) ↔
      c.isSnapshot = false ∧ c.Accepted ∧ m.client.auth.headersError = none ∧
        (checkAndRefresh.exec E i 0 ⟨m, []⟩).result = .ok () := by
  rw [← parameters_isOk_iff repr]
  rcases hparameters : c.parameters repr with e | payload
  · have hresult := exec_run_refused (E := E) (i := i) (m := m) text during view hparameters
    constructor
    · rintro ⟨⟨value, hvalue⟩, -⟩
      rw [hresult] at hvalue
      contradiction
    · rintro ⟨-, ⟨payload, hpayload⟩, -⟩
      contradiction
  rcases exec_run_serve (E := E) (i := i) (m := m) text during view hparameters with
    ⟨hresult, hsends⟩
  constructor
  · rintro ⟨⟨value, hvalue⟩, -⟩
    rw [hresult] at hvalue
    have hraised : ∀ e, ((c.call payload).serve.exec E i 0 ⟨m, []⟩).result ≠ .error e := by
      intro e he
      rw [he] at hvalue
      contradiction
    have hplain : c.isSnapshot = false := by
      by_contra hsnapshot
      exact hraised _ (exec_serve_refused
        (arguments_snapshot (Bool.of_not_eq_false hsnapshot) payload))
    rcases arguments_call hplain payload with ⟨jsonData, harguments, -⟩
    rw [exec_serve harguments] at hraised
    have hlogin : (checkAndRefresh.exec E i 0 ⟨m, []⟩).result = .ok () := by
      rcases hrenewal : (checkAndRefresh.exec E i 0 ⟨m, []⟩).result with e | u
      · exact absurd (exec_request_unrenewed hanswers hrenewal) (hraised e)
      · rfl
    refine ⟨hplain, ⟨payload, rfl⟩, ?_, hlogin⟩
    rcases hheaders : m.client.auth.headersError with - | e
    · rfl
    · exact absurd (exec_request_headerless hE hin hlogin hheaders) (hraised e)
  · rintro ⟨hplain, -, hheaders, hlogin⟩
    rcases arguments_call hplain payload with ⟨jsonData, harguments, hdata⟩
    rcases exec_request_answered c.method c.path jsonData none hE hanswers hin hlogin hheaders with
      ⟨value, n', w', logins, q, hrun, hsent, hposts, hpurpose, hcarries, hurl⟩
    have hserve : (c.call payload).serve.exec E i 0 ⟨m, []⟩ = ⟨.ok value, n', w'⟩ :=
      (exec_serve harguments).trans hrun
    rw [hserve] at hresult hsends
    rcases carries_parameters hparameters hdata hcarries with ⟨hjson, hquery⟩
    exact ⟨⟨_, hresult⟩, logins, q, payload, hsends.trans hsent, hposts, hpurpose,
      hcarries.sameMethod, hurl, hparameters, hjson, hquery, schema_lists hplain hparameters⟩

/-- A host that answers every command with a task, and its only client. -/
abbrev taskGiven : Surroundings Machine Outcome where
  during _ m := m
  reply _ := .ok { status := 200, json := .ok (.obj [("data", .str "UPID:pve1:0001")]) }

/-- A machine is hibernated by a client that is logged in. -/
theorem onTheWire_witness :
    let m : Machine := ⟨ProxmoxVE.loggedIn ["192.0.2.1"], 0⟩
    OnTheWire textOf (.hibernate "pve1" 100) m.client
      ((((Command.hibernate "pve1" 100).run textOf textOf).servedBy ApiCall.serve).exec
        (taskGiven.beside fun _ view => view) () 0 ⟨(.init, m), []⟩) := by
  intro m
  have hin : m.client.InRange := by
    change 0 < ["192.0.2.1"].length
    decide
  have hlogin : (checkAndRefresh.exec taskGiven () 0 ⟨m, []⟩).result = .ok () :=
    congrArg Ending.result (exec_checkAndRefresh_loggedIn ["192.0.2.1"] 0)
  exact (onTheWire_iff textOf textOf (.hibernate "pve1" 100) () (fun _ _ => rfl)
    (fun _ => ⟨_, rfl, rfl, _, rfl⟩) (fun _ view => view) .init hin).mpr
    ⟨rfl, trivial, rfl, hlogin⟩

/-- A snapshot raises before anything is sent. -/
theorem onTheWire_counterexample :
    let m : Machine := ⟨ProxmoxVE.loggedIn ["192.0.2.1"], 0⟩
    let c : Command := .qemuSnapshot "pve1" 100 "pre-upgrade" none true
    let ending := ((c.run textOf textOf).servedBy ApiCall.serve).exec
      (taskGiven.beside fun _ view => view) () 0 ⟨(.init, m), []⟩
    ending.result = .error
        (.typeError "ProxmoxVE.request() got an unexpected keyword argument 'data'") ∧
      ending.world.sends = [] ∧ ¬ OnTheWire textOf c m.client ending := by
  intro m c ending
  have hresult : ending.result = .error
      (.typeError "ProxmoxVE.request() got an unexpected keyword argument 'data'") := rfl
  refine ⟨hresult, rfl, ?_⟩
  rintro ⟨⟨value, hvalue⟩, -⟩
  rw [hresult] at hvalue
  contradiction

end Command

end AioProxmox
