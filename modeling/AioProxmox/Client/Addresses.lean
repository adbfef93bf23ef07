import AioProxmox.Client.Traffic
import AioProxmox.Web.Authority

/-!
# Client - the address in the URL

The base URL of a client, read back: it names the host in use where that one is
written the way an authority wants it.  An IPv6 literal without brackets is not.

Main results:

- Definition {lit}`learnHostsFromCluster`: the addresses taken from the cluster.
- Theorem {lit}`reaches_addressed`: in every run the base URL is that of the
  host in use.
- Theorem {lit}`denotes_iff`: the URL made of an address denotes it exactly if it is no
  IPv6 literal without brackets.
-/

namespace AioProxmox

open Coroutine

/-! ## News from the cluster -/

/-- {lit}`ClusterEndpoint.status`. -/
def clusterStatus : Prog (List Json) := do
  let raw ← request "GET" "cluster/status" none none
  match raw with
  | .arr entries => return entries.filter fun entry => entry.typeName = "dict"
  | _ => return []

/-- Whether an entry of {lit}`cluster/status` is another node with an address. -/
def otherNode (entry : Json) : Bool :=
  (match entry.field? "type" with
    | some (.str kind) => kind == "node"
    | _ => false) &&
  ((entry.field? "ip").getD .null).truthy && !((entry.field? "local").getD .null).truthy

/-- The addresses of the other nodes; {lit}`text` is {lit}`str`. -/
def nodeAddresses (text : Json → String) (entries : List Json) : List Json :=
  (entries.filter otherNode).map fun entry => .str (text ((entry.field? "ip").getD .null))

/-- {lit}`learn_hosts` as a step of a coroutine. -/
def hearHosts (hosts : List Json) (replace : Bool) : Prog Unit := do
  Co.remark .learnHostsEntered
  let client ← self
  let client ← Co.ofExcept (client.learnHosts hosts replace)
  Co.modify fun m => { m with client := client }

/-- {lit}`except ProxmoxError` of {lit}`learn_hosts_from_cluster`. -/
def noStatus (err : Exc) : Prog (Option (List Json)) :=
  if err.isProxmoxError then return none else throw err

/-- {lit}`learn_hosts_from_cluster`. -/
def learnHostsFromCluster (text : Json → String) : Prog Unit := do
  let entries ← tryCatch (do return some (← clusterStatus)) noStatus
  match entries with
  | some entries => hearHosts (nodeAddresses text entries) false
  | none => return ()

/-- A call that may change which hosts a client has or uses. -/
inductive HostCall where
  | client (call : ClientCall)
  | asyncInit
  | learnHostsFromCluster

/-- The call itself. -/
def HostCall.run (text : Json → String) : HostCall → Prog Unit
  | client call => do
      let _ ← call.run
      return ()
  | asyncInit => AioProxmox.asyncInit
  | learnHostsFromCluster => AioProxmox.learnHostsFromCluster text

/-! ## The base URL is that of the host in use -/

/-- The port is the one the client began with, and where there is a host in use the
base URL is its. -/
structure ProxmoxVE.Addressed (number : Nat) (c : ProxmoxVE) : Prop where
  port : c.port = number
  baseUrl : ∀ host, c.host = .ok host → c.baseUrl = apiUrl host number

namespace ProxmoxVE.Addressed

variable {port : Nat} {c c' : ProxmoxVE}

/-- The constructor makes the URL of the configured host. -/
theorem init {args : Arguments} (h : ProxmoxVE.init args = .ok c) : c.Addressed c.port := by
  rcases init_hosts h with ⟨hhosts, hindex, hurl, -⟩
  refine ⟨rfl, fun host hhost => ?_⟩
  rw [host_eq_ok_iff, hhosts, hindex] at hhost
  cases hhost
  exact hurl

/-- News leaves the host in use where it is. -/
theorem learnHosts (h : c.Addressed port) {hosts : List Json} {replace : Bool}
    (hlearn : c.learnHosts hosts replace = .ok c') : c'.Addressed port := by
  unfold ProxmoxVE.learnHosts at hlearn
  rcases hcurrent : c.host with e | current
  · rw [hcurrent] at hlearn
    contradiction
  · rw [hcurrent] at hlearn
    cases hlearn
    refine ⟨h.port, fun host hhost => ?_⟩
    rw [host_eq_ok_iff, List.getElem?_eq_some_iff] at hhost
    rcases hhost with ⟨hlt, rfl⟩
    dsimp only at hlt ⊢
    rw [List.getElem_idxOf hlt]
    exact h.baseUrl current hcurrent

/-- A login leaves hosts and URL alone. -/
theorem tokens (h : c.Addressed port) (hsame : c'.withoutTokens = c.withoutTokens) :
    c'.Addressed port := by
  have hhost : c'.host = c.host := (congrArg ProxmoxVE.host hsame :)
  have hport : c'.port = c.port := (congrArg ProxmoxVE.port hsame :)
  have hurl : c'.baseUrl = c.baseUrl := (congrArg ProxmoxVE.baseUrl hsame :)
  refine ⟨hport.trans h.port, fun host hin => ?_⟩
  rw [hurl]
  exact h.baseUrl host (hhost ▸ hin)

end ProxmoxVE.Addressed

section Steady

variable {τ : Type} {i : τ} {h : Bool} {port : Nat}

/-- The task keeps the base URL that of the host in use. -/
abbrev KeepsAddress {α : Type} (port : Nat) (i : τ) (h : Bool) (p : Prog α) : Prop :=
  Co.Steady (fun m : Machine => m.client.Addressed port) i h p

/-- A login keeps the address. -/
theorem address_logins : Logins (τ := τ) (Co.stateDiscipline fun m => m.client.Addressed port) i h
    (fun w => w.state.client.Addressed port) (fun _ => True) where
  errors := ⟨fun _ _ => trivial, fun _ => trivial⟩
  tokens _ _ hJ hframe := ⟨Co.Steady.allows _ _, hJ.tokens hframe⟩
  remarks _ _ hJ _ _ := ⟨Co.Steady.allows _ _, hJ⟩
  posts _ _ _ hJ _ _ _ _ := ⟨Co.Steady.allows _ _, hJ, fun _ _ _ hJ' _ =>
    ⟨Co.Steady.allows _ _, hJ', ⟨fun _ _ => trivial, fun _ _ _ _ => trivial⟩⟩⟩

/-- Reading the client keeps the address. -/
theorem self_address : KeepsAddress port i h self :=
  fun _ hJ => ⟨rfl, hJ, by simp⟩

/-- Naming the host in use keeps it, also where that raises. -/
theorem currentHost_address : KeepsAddress port i h currentHost :=
  fun _ hJ => ⟨rfl, hJ, by simp⟩

/-- The index is assigned before the URL is, but nobody else runs between. -/
theorem useHost_address (index : Nat) : KeepsAddress port i h (useHost index) := by
  intro w hJ
  simp only [useHost, Co.wp_bind, Co.wp_modify, wp_self, Co.wp_ofExcept]
  refine ⟨Co.Steady.allows _ _, ?_⟩
  rcases hhost : ({ w.state.client with hostIndex := index } : ProxmoxVE).hostAt index with
    e | host
  · refine ⟨trivial, ⟨hJ.port, fun host hin => ?_⟩, by simp⟩
    have herror : ({ w.state.client with hostIndex := index } : ProxmoxVE).host = .error e := hhost
    rw [herror] at hin
    contradiction
  · refine ⟨Co.Steady.allows _ _, trivial, ⟨hJ.port, fun host' hin => ?_⟩, by simp⟩
    have hsame : ({ w.state.client with hostIndex := index } : ProxmoxVE).hostAt index =
      .ok host' := hin
    rw [hhost, Except.ok.injEq] at hsame
    rw [← hsame, ← hJ.port]
    rfl

/-- Each request keeps the address. -/
theorem requestOnce_address (purpose : Purpose) (method path : String)
    (jsonData params : Option Dict) (timeout : Option ℚ) :
    KeepsAddress port i h (requestOnce purpose method path jsonData params timeout) :=
  self_address.bind fun _ => (Co.Steady.ofExcept _).bind fun _ =>
    (Co.Steady.await _).bind fun _ => Co.Steady.ofExcept _

/-- A probe keeps the address. -/
theorem answers_address (candidate : Bool) : KeepsAddress port i h (answers candidate) := by
  refine ((requestOnce_address _ _ _ _ _ _).bind fun _ => .pure _).tryCatch fun err _ => ?_
  unfold silent
  split
  · exact currentHost_address.bind fun _ => .pure _
  · split_ifs
    · exact currentHost_address.bind fun _ => .pure _
    · exact .throw trivial

/-- Going through the candidates moves the client from address to address. -/
theorem walk_address (start : Nat) (offsets : List Nat) :
    KeepsAddress port i h (walk start offsets) := by
  induction offsets with
  | nil => exact (useHost_address start).bind fun _ => .pure _
  | cons offset rest ih =>
      refine self_address.bind fun client => (useHost_address _).bind fun _ =>
        (answers_address true).bind fun there => ?_
      split_ifs
      · exact self_address.bind fun _ => (Co.Steady.ofExcept _).bind fun _ =>
          currentHost_address.bind fun _ => .pure _
      · exact ih

/-- A search keeps the address, whether it moves the client or not. -/
theorem switchHost_address (fromHost : Option String) (verifyCurrent : Bool) :
    KeepsAddress port i h (switchHost fromHost verifyCurrent) := by
  have hmoved : KeepsAddress port i h (movedFrom fromHost) := by
    cases fromHost with
    | none => exact .pure _
    | some host => exact currentHost_address.bind fun _ => .pure _
  have hthere : KeepsAddress port i h (stillAnswers verifyCurrent) := by
    unfold stillAnswers
    split_ifs
    · exact answers_address false
    · exact .pure _
  refine self_address.bind fun client => hmoved.bind fun moved => ?_
  split_ifs
  · exact currentHost_address.bind fun _ => .pure _
  · refine hthere.bind fun stillThere => ?_
    split_ifs
    · exact currentHost_address.bind fun _ => .pure _
    · exact self_address.bind fun _ => walk_address _ _

/-- {lit}`failover` keeps the address. -/
theorem failover_address (fromHost : Option String) (verifyCurrent : Bool) :
    KeepsAddress port i false (failover fromHost verifyCurrent) :=
  (Co.Steady.remark _).bind fun _ =>
    (Co.Steady.withLock (switchHost_address fromHost verifyCurrent)).bind fun _ =>
      (Co.Steady.remark _).bind fun _ => .pure _

/-- {lit}`failover` keeps the address where it is called for peers only. -/
theorem failoverIfPeers_address (fromHost : Option String) (verifyCurrent : Bool) :
    KeepsAddress port i false (failoverIfPeers fromHost verifyCurrent) := by
  refine self_address.bind fun client => ?_
  split_ifs
  · exact .pure _
  · exact failover_address fromHost verifyCurrent

/-- A request keeps the URL that of the host in use. -/
theorem request_address (method path : String) (jsonData params : Option Dict) :
    KeepsAddress port i false (request method path jsonData params) := by
  have hsend : KeepsAddress port i false (requestOnce .request method path jsonData params none) :=
    requestOnce_address _ _ _ _ _ _
  refine Co.Upholds.bind ((checkAndRefresh_upholds address_logins).tryCatch fun err _ => ?_)
    fun _ => currentHost_address.bind fun hostBefore => hsend.tryCatch fun err _ => ?_
  · unfold renewElsewhere
    split_ifs
    · refine (failoverIfPeers_address _ _).bind fun moved => ?_
      split_ifs
      · exact checkAndRefresh_upholds address_logins
      · exact .throw trivial
    · exact .throw trivial
  · unfold recover
    split
    · refine self_address.bind fun client => ?_
      split_ifs
      · exact .throw trivial
      · exact (relogin_upholds address_logins).bind fun _ => hsend
    · split_ifs
      · refine (failoverIfPeers_address _ _).bind fun moved => ?_
        split_ifs
        · exact hsend
        · exact .throw trivial
      · exact .throw trivial

/-- {lit}`learn_hosts` keeps the address. -/
theorem hearHosts_address (hosts : List Json) (replace : Bool) :
    KeepsAddress port i h (hearHosts hosts replace) := by
  refine (Co.Steady.remark _).bind fun _ => ?_
  intro w hJ
  simp only [Co.wp_bind, wp_self, Co.wp_ofExcept]
  rcases hlearn : w.state.client.learnHosts hosts replace with e | client
  · exact ⟨trivial, hJ, by simp⟩
  · exact ⟨Co.Steady.allows _ _, rfl, hJ.learnHosts hlearn, by simp⟩

/-- {lit}`learn_hosts_from_cluster` keeps the address, also where the cluster does not answer. -/
theorem learnHostsFromCluster_address (text : Json → String) :
    KeepsAddress port i false (learnHostsFromCluster text) := by
  have hstatus : KeepsAddress port i false clusterStatus := by
    refine (request_address _ _ _ _).bind fun raw => ?_
    split
    · exact .pure _
    · exact .pure _
  refine Co.Upholds.bind ((hstatus.bind fun _ => .pure _).tryCatch fun err _ => ?_)
    fun entries => ?_
  · unfold noStatus
    split_ifs
    · exact .pure _
    · exact .throw trivial
  · split
    · exact hearHosts_address _ _
    · exact .pure _

/-- Every call of the client keeps the address. -/
theorem hostCall_address (text : Json → String) (call : HostCall) :
    KeepsAddress port i false (call.run text) := by
  cases call with
  | client call =>
      refine Co.Upholds.bind ?_ fun _ => .pure _
      cases call with
      | request call => exact request_address _ _ _ _
      | failover fromHost verifyCurrent =>
          exact (failover_address fromHost verifyCurrent).bind fun _ => .pure _
  | asyncInit =>
      exact (ticketAuth_upholds address_logins).bind fun _ =>
        getNewTokens_upholds address_logins _ _ _
  | learnHostsFromCluster => exact learnHostsFromCluster_address text

end Steady

/-- Beside the tasks others call {lit}`learn_hosts`, and time passes. -/
def NewsOnly {τ α : Type} (_ : Config τ Machine Exchange Outcome Exc Remark α) :
    Action τ Machine Outcome → Prop
  | .environment f =>
      (∃ hosts replace, f = fun m => HostStep.apply m (.learn hosts replace)) ∨
        ∀ m, (f m).client = m.client
  | _ => True

/-- In every run the base URL is that of the host in use. -/
theorem reaches_addressed {τ : Type} [DecidableEq τ] {text : Json → String}
    {calls : τ → HostCall} {m : Machine} {port : Nat} (hm : m.client.Addressed port)
    {c : Config τ Machine Exchange Outcome Exc Remark Unit}
    (hrun : Config.Reaches NewsOnly (.initial m fun i => (calls i).run text) c) :
    c.world.state.client.Addressed port := by
  refine Config.Reaches.steady (J := fun m : Machine => m.client.Addressed port)
    (fun i => hostCall_address text (calls i)) hm (fun c f hf hJ => ?_) hrun
  rcases hf with ⟨hosts, replace, rfl⟩ | hclient
  · dsimp only [HostStep.apply]
    split
    · rename_i client hlearn
      exact hJ.learnHosts hlearn
    · exact hJ
  · rw [hclient]
    exact hJ

/-! ## Reading the URL back -/

/-- An IPv6 literal, without brackets: colons, and no other delimiter. -/
def IsIPv6 (text : String) : Prop :=
  2 ≤ text.toList.count ':' ∧ ∀ c ∈ text.toList, c = ':' ∨ c ∉ Web.genDelims

instance (text : String) : Decidable (IsIPv6 text) :=
  decidable_of_iff (2 ≤ text.toList.count ':' ∧
    (text.toList.all fun c => decide (c = ':' ∨ c ∉ Web.genDelims)) = true) (by simp [IsIPv6])

/-- How addresses are written: a DNS name or an IPv4 address, and an IPv6 literal with
brackets or without. -/
inductive Names : String → Web.Host → Prop
  | name {text : String} (hne : text ≠ "") (hchars : ∀ c ∈ text.toList, c ∉ Web.genDelims) :
      Names text (.name text)
  | bracketed (text : String) (h : IsIPv6 text) : Names ("[" ++ text ++ "]") (.ipLiteral text)
  | bare {text : String} (h : IsIPv6 text) : Names text (.ipLiteral text)

/-- What the constructor cuts at the first colon. -/
def Bare (host : String) : Prop :=
  Text.contains host ":" = true ∧ Text.startsWith host "[" = false

instance (host : String) : Decidable (Bare host) :=
  inferInstanceAs (Decidable (_ ∧ _))

/-- The base URL denotes an address with the client's port. -/
def Denotes (c : ProxmoxVE) (address : Web.Host) : Prop :=
  Web.endpoint c.baseUrl = some ⟨address, toString c.port⟩

section Endpoint

variable {host text : String} {port : Nat}

/-- A name with a port is cut before it. -/
theorem cleanHost_of_bare (h : Bare host) : ProxmoxVE.cleanHost host = Text.before ':' host := by
  unfold ProxmoxVE.cleanHost
  rw [if_pos (by simp [h.1, h.2])]

/-- Every other name is kept as it is. -/
theorem cleanHost_of_not_bare (h : ¬Bare host) : ProxmoxVE.cleanHost host = host := by
  unfold ProxmoxVE.cleanHost
  rw [if_neg]
  intro hboth
  simp only [Bool.and_eq_true, Bool.not_eq_true'] at hboth
  exact h hboth

/-- Digits delimit nothing. -/
theorem toString_delims (port : Nat) : ∀ c ∈ (toString port).toList, c ∉ Web.genDelims := by
  intro c hc hdelim
  have hdigit : c.isDigit = true := by
    rw [Nat.toString_eq_repr, Nat.repr, String.toList_ofList] at hc
    exact Nat.isDigit_of_mem_toDigits (by decide) (by decide) hc
  simp only [Web.genDelims, List.mem_cons, List.not_mem_nil, or_false] at hdelim
  rcases hdelim with rfl | rfl | rfl | rfl | rfl | rfl | rfl
  all_goals contradiction

/-- The URL of a host is read from the host and the port. -/
theorem endpoint_apiUrl (h : ∀ c ∈ host.toList, Web.endsAuthority c = false) :
    Web.endpoint (apiUrl host port) =
      Web.readAuthority (host.toList ++ ':' :: (toString port).toList) := by
  have hchars : ∀ c ∈ host.toList ++ ':' :: (toString port).toList,
      Web.endsAuthority c = false := by
    intro c hc
    rcases List.mem_append.mp hc with hc | hc
    · exact h c hc
    · rcases List.mem_cons.mp hc with rfl | hc
      · rfl
      · have hdelim := toString_delims port c hc
        simp only [Web.genDelims, List.mem_cons, List.not_mem_nil, or_false, not_or] at hdelim
        simp [Web.endsAuthority, hdelim]
  have hurl : (apiUrl host port).toList = "https".toList ++ ':' :: '/' :: '/' ::
      (host.toList ++ ':' :: (toString port).toList) ++ '/' :: "api2/json".toList := by
    simp [apiUrl]
  unfold Web.endpoint
  rw [hurl, Web.authority_eq (by decide) hchars]
  rfl

/-- No character of an IPv6 literal ends the authority. -/
theorem endsAuthority_of_ipv6 {c : Char} (h : c = ':' ∨ c ∉ Web.genDelims) :
    Web.endsAuthority c = false := by
  rcases h with rfl | h
  · rfl
  · simp only [Web.genDelims, List.mem_cons, List.not_mem_nil, or_false, not_or] at h
    simp [Web.endsAuthority, h]

/-- Without brackets no IPv6 literal is read. -/
theorem endpoint_bare (h : ∀ c ∈ host.toList, c = ':' ∨ c ∉ Web.genDelims) (digits : String) :
    Web.endpoint (apiUrl host port) ≠ some ⟨.ipLiteral text, digits⟩ := by
  rw [endpoint_apiUrl fun c hc => endsAuthority_of_ipv6 (h c hc)]
  have hplain : ∀ d ∈ ['@', '['], ∀ c ∈ host.toList, c ≠ d := by
    rintro d hd c hc rfl
    rcases h c hc with rfl | hdelim
    · revert hd
      decide
    · apply hdelim
      revert hd
      simp +contextual [Web.genDelims, or_imp]
  apply Web.readAuthority_not_ipLiteral
  · intro hat
    rcases List.mem_append.mp hat with hmem | hmem
    · exact hplain '@' (by decide) _ hmem rfl
    · rcases List.mem_cons.mp hmem with heq | hmem
      · contradiction
      · exact toString_delims port _ hmem (by decide)
  · cases hhost : host.toList with
    | nil => simp
    | cons c rest =>
        rw [List.cons_append, List.head?_cons, ne_eq, Option.some.injEq]
        exact hplain '[' (by decide) c (hhost ▸ List.mem_cons_self)

/-- A name is read back. -/
theorem endpoint_name (h : ∀ c ∈ host.toList, c ∉ Web.genDelims) :
    Web.endpoint (apiUrl host port) = some ⟨.name host, toString port⟩ := by
  rw [endpoint_apiUrl fun c hc => endsAuthority_of_ipv6 (.inr (h c hc)),
    Web.readAuthority_name h (toString_delims port), String.ofList_toList, String.ofList_toList]

/-- An IPv6 literal in brackets is read back. -/
theorem endpoint_bracketed (h : IsIPv6 text) :
    Web.endpoint (apiUrl ("[" ++ text ++ "]") port) = some ⟨.ipLiteral text, toString port⟩ := by
  have hclosed : ∀ c ∈ text.toList, c ≠ ']' ∧ c ≠ '@' := by
    intro c hc
    rcases h.2 c hc with rfl | hdelim
    · decide
    · simp only [Web.genDelims, List.mem_cons, List.not_mem_nil, or_false, not_or] at hdelim
      exact ⟨hdelim.2.2.2.2.2.1, hdelim.2.2.2.2.2.2⟩
  have hchars : ("[" ++ text ++ "]").toList = '[' :: text.toList ++ [']'] := by
    simp
  rw [endpoint_apiUrl, hchars, List.append_assoc, List.singleton_append,
    Web.readAuthority_ipLiteral hclosed (toString_delims port), String.ofList_toList,
    String.ofList_toList]
  intro c hc
  rw [hchars] at hc
  rcases List.mem_append.mp hc with hc | hc
  · rcases List.mem_cons.mp hc with rfl | hc
    · rfl
    · exact endsAuthority_of_ipv6 (h.2 c hc)
  · cases List.mem_singleton.mp hc
    rfl

theorem contains_colon_iff : Text.contains host ":" = true ↔ ':' ∈ host.toList := by
  rw [Text.contains, decide_eq_true_eq]
  exact List.singleton_infix_iff ':' host.toList

/-- Of the ways to write an address, only an IPv6 literal without brackets is bare. -/
theorem Names.bare_or {address : Web.Host} (h : Names host address) :
    (¬Bare host ∧ ∀ port, Web.endpoint (apiUrl host port) = some ⟨address, toString port⟩) ∨
      Bare host ∧ IsIPv6 host ∧ ∃ literal, address = .ipLiteral literal := by
  cases h with
  | name hne hchars =>
      left
      refine ⟨fun hbare => ?_, fun port => endpoint_name hchars⟩
      exact hchars _ (contains_colon_iff.mp hbare.1) (by decide)
  | bracketed text hliteral =>
      left
      refine ⟨fun hbare => ?_, fun port => endpoint_bracketed hliteral⟩
      have hstart := hbare.2
      simp [Text.startsWith] at hstart
  | bare hliteral =>
      right
      refine ⟨⟨contains_colon_iff.mpr ?_, ?_⟩, hliteral, host, rfl⟩
      · exact List.count_pos_iff.mp (by have := hliteral.1; omega)
      · cases hhost : host.toList with
        | nil => simp [Text.startsWith, hhost]
        | cons c rest =>
            have hc : c ≠ '[' := by
              rintro rfl
              rcases hliteral.2 _ (hhost ▸ List.mem_cons_self) with heq | hdelim
              · contradiction
              · exact hdelim (by decide)
            simp [Text.startsWith, hhost, List.isPrefixOf, hc.symm]

/-- The URL made of an address denotes it exactly if the address is no IPv6 literal
without brackets. -/
theorem Names.denotes_iff {address : Web.Host} (h : Names host address) (port : Nat) :
    Web.endpoint (apiUrl host port) = some ⟨address, toString port⟩ ↔ ¬Bare host := by
  rcases h.bare_or with ⟨hbare, hread⟩ | ⟨hbare, hliteral, literal, rfl⟩
  · exact iff_of_true (hread port) hbare
  · exact iff_of_false (endpoint_bare hliteral.2 _) (not_not.mpr hbare)

/-- So does the URL the constructor makes, which cuts such a literal. -/
theorem Names.cleaned_denotes_iff {address : Web.Host} (h : Names host address) (port : Nat) :
    Web.endpoint (apiUrl (ProxmoxVE.cleanHost host) port) = some ⟨address, toString port⟩ ↔
      ¬Bare host := by
  rcases h.bare_or with ⟨hbare, hread⟩ | ⟨hbare, hliteral, literal, rfl⟩
  · rw [cleanHost_of_not_bare hbare]
    exact iff_of_true (hread port) hbare
  · rw [cleanHost_of_bare hbare]
    refine iff_of_false (endpoint_bare (fun c hc => hliteral.2 c ?_) _) (not_not.mpr hbare)
    rw [Text.before, String.toList_ofList] at hc
    exact (List.takeWhile_sublist _).subset hc

end Endpoint

/-! ## Every run -/

/-- In every run of any calls on a client, beside any news, the base URL denotes the
configured host while that is in use, and any other host while that one is, exactly if
the host is no IPv6 literal written without brackets. -/
theorem baseUrl_denotes_iff {τ : Type} [DecidableEq τ] {args : ProxmoxVE.Arguments}
    {first : ProxmoxVE} (hinit : ProxmoxVE.init args = .ok first) (clock : ℚ)
    (text : Json → String) (calls : τ → HostCall)
    {c : Config τ Machine Exchange Outcome Exc Remark Unit}
    (hrun : Config.Reaches NewsOnly (.initial ⟨first, clock⟩ fun i => (calls i).run text) c) :
    (∀ address, Names args.host address →
      c.world.state.client.host = .ok (ProxmoxVE.cleanHost args.host) →
      (Denotes c.world.state.client address ↔ ¬Bare args.host)) ∧
    ∀ host address, Names host address → c.world.state.client.host = .ok host →
      (Denotes c.world.state.client address ↔ ¬Bare host) := by
  have haddressed : c.world.state.client.Addressed first.port :=
    reaches_addressed (m := ⟨first, clock⟩) (ProxmoxVE.Addressed.init hinit) hrun
  constructor
  · intro address hnames hhost
    rw [Denotes, haddressed.baseUrl _ hhost, haddressed.port]
    exact hnames.cleaned_denotes_iff first.port
  · intro host address hnames hhost
    rw [Denotes, haddressed.baseUrl _ hhost, haddressed.port]
    exact hnames.denotes_iff first.port

/-- Credentials for a host. -/
def tokenFor (host : String) : ProxmoxVE.Arguments where
  host := host
  user := some "root@pam"
  tokenName := some "monitor"
  tokenValue := some "secret"

/-- A client constructed for a host. -/
def constructedFor (host : String) : ProxmoxVE :=
  let host := ProxmoxVE.cleanHost host
  { auth := .token {
      username := "root@pam", tokenName := "monitor", tokenValue := "secret"
      verifySsl := .flag true }
    baseUrl := apiUrl host defaultPvePort, hosts := [host], hostIndex := 0
    port := defaultPvePort, verifySsl := .flag true, timeout := 5 }

/-- The constructor builds this client. -/
theorem init_tokenFor (host : String) :
    ProxmoxVE.init (tokenFor host) = .ok (constructedFor host) :=
  rfl

/-- The cluster is asked for its hosts, and one of them is failed over to. -/
def learnAndMove : Fin 2 → HostCall :=
  ![.learnHostsFromCluster, .client (.failover none false)]

/-- {lit}`str` of a string. -/
def strOnly : Json → String
  | .str s => s
  | _ => ""

/-- An answer of {lit}`cluster/status` that names another node. -/
def statusWith (ip : String) : Outcome :=
  .ok { status := 200, json := .ok (.obj [("data", .arr [.obj [("type", .str "node"),
    ("ip", .str ip)]])]) }

/-- One task learns from the answer of the cluster, another moves to the host that answers. -/
def learnAndMoveSchedule {τ : Type} (learner mover : τ) (ip : String) :
    List (Action τ Machine Outcome) :=
  [.start learner, .resume learner (statusWith ip), .start mover, .lock mover,
    .resume mover (replyOf true)]

/-- News and answers are all that the schedule needs. -/
theorem learnAndMoveSchedule_newsOnly {τ : Type} (learner mover : τ) (ip : String)
    (c : Config τ Machine Exchange Outcome Exc Remark Unit) :
    ∀ a ∈ learnAndMoveSchedule learner mover ip, NewsOnly c a := by
  simp [learnAndMoveSchedule, NewsOnly]

/-- The client is pointed at a literal in brackets. -/
theorem baseUrl_denotes_witness :
    ∃ c : Config (Fin 2) Machine Exchange Outcome Exc Remark Unit,
      c.world.state.client.host = .ok "[fd00::2]" ∧
        Denotes c.world.state.client (.ipLiteral "fd00::2") := by
  obtain ⟨c, hrun, hhost⟩ : ∃ c, Config.run
      (.initial ⟨constructedFor "pve", 0⟩ fun i => (learnAndMove i).run strOnly)
        (learnAndMoveSchedule 0 1 "[fd00::2]") = some c ∧
      c.world.state.client.host = .ok "[fd00::2]" :=
    ⟨_, by and_intros <;> with_unfolding_all rfl⟩
  have hnames : Names "[fd00::2]" (.ipLiteral "fd00::2") :=
    .bracketed "fd00::2" (by decide)
  refine ⟨c, hhost, ((baseUrl_denotes_iff (init_tokenFor "pve") 0 strOnly learnAndMove
    (Config.reaches_of_run (learnAndMoveSchedule_newsOnly _ _ _) hrun)).2 _ _ hnames hhost).mpr ?_⟩
  decide

/-- An IPv6 literal without brackets, as the cluster names it, is in use and is not
what the URL denotes; nor does that of a client constructed for one. -/
theorem baseUrl_denotes_counterexample :
    (¬ ∀ c, Config.Reaches NewsOnly
        (.initial ⟨constructedFor "pve", 0⟩ fun i => (learnAndMove i).run strOnly) c →
      c.world.state.client.host = .ok "2001:db8::2" →
        Denotes c.world.state.client (.ipLiteral "2001:db8::2")) ∧
    ¬ ∀ client, ProxmoxVE.init (tokenFor "2001:db8::1") = .ok client →
      Denotes client (.ipLiteral "2001:db8::1") := by
  constructor
  · obtain ⟨c, hrun, hhost, hurl, hport⟩ : ∃ c, Config.run
        (.initial ⟨constructedFor "pve", 0⟩ fun i => (learnAndMove i).run strOnly)
          (learnAndMoveSchedule 0 1 "2001:db8::2") = some c ∧
        c.world.state.client.host = .ok "2001:db8::2" ∧
        c.world.state.client.baseUrl = "https://2001:db8::2:8006/api2/json" ∧
        c.world.state.client.port = 8006 :=
      ⟨_, by and_intros <;> with_unfolding_all rfl⟩
    intro hall
    have hdenotes := hall c
      (Config.reaches_of_run (learnAndMoveSchedule_newsOnly _ _ _) hrun) hhost
    rw [Denotes, hurl, hport] at hdenotes
    revert hdenotes
    decide
  · intro hall
    have hdenotes := hall _ (init_tokenFor "2001:db8::1")
    revert hdenotes
    unfold Denotes
    decide

end AioProxmox
