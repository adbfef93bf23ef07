import AioProxmox.Privileges.Routes
import AioProxmox.System.Methods

/-!
# System - what the methods require

Each method of the endpoint classes writes the path of its call for a node and a guest.  The
package can be asked what such a path requires, and what the route requires that the path
belongs to; for every call of every method the two are one answer, also for the routes of which
the package knows nothing.

Main results:

- Definition {lit}`EndpointCall.routes`: the routes that a method calls.
- Theorem {lit}`methodRoutes_lookable`: none of them meets another template of the package.
- Theorem {lit}`methods_require`: each call of each method requires what its route does.
-/

namespace AioProxmox

open Routing

/-! ## Routes -/

/-- {lit}`nodes/\x7bnode\x7d/` and what follows it. -/
def nodeRoute (ending : String) : String :=
  nodePath (Text.braced "node") ending

/-- {lit}`nodes/\x7bnode\x7d/`, a kind of guest, {lit}`\x7bvmid\x7d` and what follows it. -/
def guestRoute (kind ending : String) : String :=
  nodeRoute (kind ++ "/" ++ (Text.braced "vmid" ++ "/" ++ ending))

/-- The route of a command. -/
def Command.route : Command → String
  | nodeAction action .. => nodeRoute action.endpoint
  | qemuAction action .. => guestRoute "qemu" ("status/" ++ action.endpoint)
  | lxcAction action .. => guestRoute "lxc" ("status/" ++ action.endpoint)
  | nodeStatus .. => nodeRoute "status"
  | qemuSnapshot .. => guestRoute "qemu" "snapshot"
  | lxcSnapshot .. => guestRoute "lxc" "snapshot"
  | hibernate .. => guestRoute "qemu" "status/suspend"
  | qemuUnlock .. => guestRoute "qemu" "config"
  | lxcUnlock .. => guestRoute "lxc" "config"
  | vzdump .. => nodeRoute "vzdump"
  | armHa => "cluster/ha/status/arm-ha"
  | disarmHa _ => "cluster/ha/status/disarm-ha"

/-- The route of a reading method. -/
def Reading.route : Reading → String
  | agentPing .. => guestRoute "qemu" "agent/ping"
  | agentFsinfo .. => guestRoute "qemu" "agent/get-fsinfo"
  | agentNetworkInterfaces .. => guestRoute "qemu" "agent/network-get-interfaces"
  | qemuSnapshots .. => guestRoute "qemu" "snapshot"
  | lxcSnapshots .. => guestRoute "lxc" "snapshot"
  | lxcInterfaces .. => guestRoute "lxc" "interfaces"
  | accessPermissions => "access/permissions"
  | aptUpdate _ => nodeRoute "apt/update"
  | disksAll _ => nodeRoute "disks/list"
  | disksSmart .. => nodeRoute "disks/smart"
  | disksZfs _ => nodeRoute "disks/zfs"
  | qemuAll _ => nodeRoute "qemu"
  | lxcAll _ => nodeRoute "lxc"
  | nodeStatus _ => nodeRoute "status"
  | tasks .. => nodeRoute "tasks"
  | nodeStorage _ => nodeRoute "storage"
  | nodeVersion _ => nodeRoute "version"
  | certificates _ => nodeRoute "certificates/info"
  | subscription _ => nodeRoute "subscription"
  | replication _ => nodeRoute "replication"
  | network _ => nodeRoute "network"
  | statusEntries => "cluster/status"
  | cephStatus => "cluster/ceph/status"
  | haStatus => "cluster/ha/status/current"
  | notBackedUp => "cluster/backup-info/not-backed-up"

/-- The routes that a method calls: the status of a guest may fetch the resource list first. -/
def EndpointCall.routes : EndpointCall → List String
  | command c => [c.route]
  | reading r => [r.route]
  | qemuCurrent _ => [resourcesCall.path, guestRoute "qemu" "status/current"]
  | lxcCurrent _ => [resourcesCall.path, guestRoute "lxc" "status/current"]
  | resources => [resourcesCall.path]

/-- What the names of a route stand for. -/
def placed (node : String) (vmid : Int) (name : String) : String :=
  if name = "node" then node else toString vmid

/-! ## Paths -/

section Paths

variable {values : String → String} {node : String} {vmid : Int}

/-- A route of a node is filled in with the node. -/
theorem filledIn_nodeRoute (ending : String) :
    filledIn values (nodeRoute ending) = nodePath (values "node") (filledIn values ending) := by
  have hroute : nodeRoute ending = "nodes" ++ "/" ++ (Text.braced "node" ++ "/" ++ ending) := by
    apply String.toList_injective
    simp [nodeRoute, nodePath]
  have hnodes : segmentOf "nodes" = .literal "nodes" := by decide
  have hnode : segmentOf (Text.braced "node") = .placeholder "node" := by decide
  rw [hroute, filledIn_segment (by decide), filledIn_segment (by decide), hnodes, hnode]
  apply String.toList_injective
  simp [nodePath, Segment.fill]

/-- A route of a guest is filled in with the node and the guest. -/
theorem filledIn_guestRoute {kind ending : String} (hkind : Text.SlashFree kind)
    (hliteral : segmentOf kind = .literal kind) (hplain : (templateOf ending).names = []) :
    filledIn (placed node vmid) (guestRoute kind ending) = guestPath node kind vmid ending := by
  have hvmid : segmentOf (Text.braced "vmid") = .placeholder "vmid" := by decide
  rw [guestRoute, filledIn_nodeRoute, filledIn_segment hkind, filledIn_segment (by decide),
    hliteral, hvmid, filledIn_plain hplain]
  apply String.toList_injective
  simp [nodePath, guestPath, Segment.fill, placed]

end Paths

/-! ## All of them -/

/-- The routes of the endpoint classes. -/
def methodRoutes : List String :=
  ["wakeonlan", "suspendall", "stopall", "startall", "status", "vzdump", "apt/update",
    "disks/list", "disks/smart", "disks/zfs", "qemu", "lxc", "tasks", "storage", "version",
    "certificates/info", "subscription", "replication", "network"].map nodeRoute ++
  ["status/start", "status/stop", "status/reboot", "status/suspend", "status/resume",
    "status/reset", "status/shutdown", "status/current", "snapshot", "config", "agent/ping",
    "agent/get-fsinfo", "agent/network-get-interfaces"].map (guestRoute "qemu") ++
  ["status/start", "status/stop", "status/reboot", "status/suspend", "status/resume",
    "status/shutdown", "status/current", "snapshot", "config", "interfaces"].map
    (guestRoute "lxc") ++
  ["cluster/resources", "access/permissions", "cluster/status", "cluster/ceph/status",
    "cluster/ha/status/current", "cluster/backup-info/not-backed-up", "cluster/ha/status/arm-ha",
    "cluster/ha/status/disarm-ha"]

/-- Each route of a method is well formed, and no other one of the table has its paths. -/
theorem methodRoutes_segments : ∀ route ∈ methodRoutes,
    WellFormed ((Text.split '/' route).map segmentOf) ∧
      ∀ segments ∈ checkSegments, segments = Text.split '/' route ∨
        Template.apart (segments.map segmentOf) ((Text.split '/' route).map segmentOf) = true := by
  decide +kernel

/-- Each route of a method can be looked up. -/
theorem methodRoutes_lookable {route : String} (h : route ∈ methodRoutes) : Lookable route := by
  rcases methodRoutes_segments route h with ⟨hwellFormed, hsegments⟩
  refine ⟨hwellFormed, fun entry hentry => ?_⟩
  have hmem : Text.split '/' entry.1.2 ∈ checkSegments := by
    rw [← checks_split]
    exact List.mem_map_of_mem hentry
  rcases hsegments _ hmem with hsame | hapart
  · left
    rw [← Text.joined_split entry.1.2, hsame, Text.joined_split]
  · exact .inr hapart

/-- The route of a command is one of the methods'. -/
theorem Command.route_mem (c : Command) : c.route ∈ methodRoutes := by
  cases c with
  | nodeAction action node kwargs =>
      have h : ∀ ending ∈ ["wakeonlan", "suspendall", "stopall", "startall"],
          nodeRoute ending ∈ methodRoutes := by decide +kernel
      exact h action.endpoint (by cases action <;> simp [NodeAction.endpoint])
  | qemuAction action node vmid kwargs =>
      have h : ∀ ending ∈ ["start", "stop", "reboot", "suspend", "resume", "reset", "shutdown"],
          guestRoute "qemu" ("status/" ++ ending) ∈ methodRoutes := by decide +kernel
      exact h action.endpoint (by cases action <;> simp [QemuAction.endpoint])
  | lxcAction action node vmid kwargs =>
      have h : ∀ ending ∈ ["start", "stop", "reboot", "suspend", "resume", "shutdown"],
          guestRoute "lxc" ("status/" ++ ending) ∈ methodRoutes := by decide +kernel
      exact h action.endpoint (by cases action <;> simp [LxcAction.endpoint])
  | _ => simp [route, methodRoutes]

/-- The route of a reading method is one of the methods'. -/
theorem Reading.route_mem (r : Reading) : r.route ∈ methodRoutes := by
  cases r <;> simp [route, methodRoutes]

/-- The routes of every method are among them. -/
theorem EndpointCall.routes_mem {e : EndpointCall} {route : String} (h : route ∈ e.routes) :
    route ∈ methodRoutes := by
  cases e with
  | command c =>
      rcases List.mem_singleton.mp h with rfl
      exact c.route_mem
  | reading r =>
      rcases List.mem_singleton.mp h with rfl
      exact r.route_mem
  | qemuCurrent vmid =>
      rcases List.mem_pair.mp h with rfl | rfl <;> simp [methodRoutes, resourcesCall]
  | lxcCurrent vmid =>
      rcases List.mem_pair.mp h with rfl | rfl <;> simp [methodRoutes, resourcesCall]
  | resources =>
      rcases List.mem_singleton.mp h with rfl
      simp [methodRoutes, resourcesCall]

/-- The path of a command is its route, filled in. -/
theorem Command.path_eq (c : Command) :
    ∃ node vmid, c.path = filledIn (placed node vmid) c.route := by
  cases c with
  | nodeAction action node kwargs =>
      refine ⟨node, 0, ?_⟩
      rw [route, filledIn_nodeRoute, filledIn_plain (by cases action <;> decide)]
      rfl
  | qemuAction action node vmid kwargs =>
      refine ⟨node, vmid, ?_⟩
      rw [route, filledIn_guestRoute (by decide) (by decide) (by cases action <;> decide)]
      apply String.toList_injective
      simp [path, guestPath]
  | lxcAction action node vmid kwargs =>
      refine ⟨node, vmid, ?_⟩
      rw [route, filledIn_guestRoute (by decide) (by decide) (by cases action <;> decide)]
      apply String.toList_injective
      simp [path, guestPath]
  | nodeStatus command node =>
      refine ⟨node, 0, ?_⟩
      rw [route, filledIn_nodeRoute, filledIn_plain (by decide)]
      apply String.toList_injective
      simp [path, nodePath, placed]
  | vzdump node args =>
      refine ⟨node, 0, ?_⟩
      rw [route, filledIn_nodeRoute, filledIn_plain (by decide)]
      apply String.toList_injective
      simp [path, nodePath, placed]
  | qemuSnapshot node vmid | lxcSnapshot node vmid | hibernate node vmid
  | qemuUnlock node vmid | lxcUnlock node vmid =>
      refine ⟨node, vmid, ?_⟩
      rw [route, filledIn_guestRoute (by decide) (by decide) (by decide)]
      apply String.toList_injective
      simp [path, guestPath]
  | armHa => exact ⟨"", 0, (filledIn_plain (by decide)).symm⟩
  | disarmHa resourceMode =>
      refine ⟨"", 0, ?_⟩
      rw [route, filledIn_plain (by decide)]
      rfl

/-- The path of a reading method is its route filled in. -/
theorem Reading.path_eq (r : Reading) :
    ∃ node vmid, r.path = filledIn (placed node vmid) r.route := by
  cases r with
  | agentPing node vmid | agentFsinfo node vmid | agentNetworkInterfaces node vmid
  | qemuSnapshots node vmid | lxcSnapshots node vmid | lxcInterfaces node vmid =>
      exact ⟨node, vmid, (filledIn_guestRoute (by decide) (by decide) (by decide)).symm⟩
  | accessPermissions | statusEntries | cephStatus | haStatus | notBackedUp =>
      exact ⟨"", 0, (filledIn_plain (by decide)).symm⟩
  | aptUpdate node | disksAll node | disksSmart node | disksZfs node | qemuAll node
  | lxcAll node | nodeStatus node | tasks node | nodeStorage node | nodeVersion node
  | certificates node | subscription node | replication node | network node =>
      refine ⟨node, 0, ?_⟩
      rw [route, filledIn_nodeRoute, filledIn_plain (by decide)]
      rfl

/-- Each call of a method is made with the path of one of its routes, filled in. -/
theorem MayCall.path_eq {repr : Json → String} {e : EndpointCall} {above : Calls} {q : ApiCall}
    (h : MayCall repr e above q) :
    ∃ route ∈ e.routes, ∃ node vmid, q.path = filledIn (placed node vmid) route := by
  have hresources : ∃ node vmid,
      resourcesCall.path = filledIn (placed node vmid) resourcesCall.path :=
    ⟨"", 0, (filledIn_plain (by decide)).symm⟩
  have hstatus : ∀ (kind : GuestKind) (vmid : Int), Text.SlashFree kind.path →
      segmentOf kind.path = .literal kind.path → MayAskStatus kind vmid above q →
      ∃ route ∈ [resourcesCall.path, guestRoute kind.path "status/current"],
        ∃ node vmid, q.path = filledIn (placed node vmid) route := by
    intro kind vmid hfree hliteral hask
    have hasked : ∀ node, ∃ node' vmid', (statusCall kind node vmid).path =
        filledIn (placed node' vmid') (guestRoute kind.path "status/current") := by
      intro node
      refine ⟨node, vmid, ?_⟩
      rw [filledIn_guestRoute hfree hliteral (by decide)]
      apply String.toList_injective
      simp [statusCall, statusPath, guestPath]
    cases hask with
    | fetches => exact ⟨_, List.mem_cons_self, hresources⟩
    | asks node => exact ⟨_, List.mem_cons_of_mem _ List.mem_cons_self, hasked node⟩
    | asksFetched node raw => exact ⟨_, List.mem_cons_of_mem _ List.mem_cons_self, hasked node⟩
  cases e with
  | command c =>
      rcases h with ⟨-, payload, -, rfl⟩
      exact ⟨_, List.mem_cons_self, c.path_eq⟩
  | reading r =>
      rcases h with ⟨-, rfl⟩
      exact ⟨_, List.mem_cons_self, r.path_eq⟩
  | qemuCurrent vmid => exact hstatus qemuKind vmid (by decide) (by decide) h
  | lxcCurrent vmid => exact hstatus lxcKind vmid (by decide) (by decide) h
  | resources =>
      rcases h with ⟨-, rfl⟩
      exact ⟨_, List.mem_cons_self, hresources⟩

/-- A number is printed without slashes. -/
theorem slashFree_int (n : Int) : Text.SlashFree (toString n) := by
  have hnat : ∀ n : Nat, '/' ∉ (Nat.repr n).toList := by
    intro n hmem
    rw [Nat.repr, String.toList_ofList] at hmem
    have hdigit : ('/' : Char).isDigit = true :=
      Nat.isDigit_of_mem_toDigits (by decide) (by decide) hmem
    contradiction
  cases n with
  | ofNat n => exact hnat n
  | negSucc n =>
      show '/' ∉ ("-" ++ Nat.repr (n + 1)).toList
      simpa using hnat (n + 1)

/-- Where the names of a route stand for a node without slashes and a guest, no value has one. -/
theorem slashFreeFor_placed {route node : String}
    (h : "node" ∈ (templateOf route).names → Text.SlashFree node) (vmid : Int) :
    SlashFreeFor route (placed node vmid) := by
  intro name hname
  unfold placed
  split_ifs with hnode
  · exact h (hnode ▸ hname)
  · exact slashFree_int vmid

/-- Whatever the order of the table, and whether it knows the route or not: a method calls the
path of one of its routes for a node and a guest, and for whatever node and guest that is, the
node being without slashes where the route has one, the call requires what the route of the
method does, for that node and that guest. -/
theorem methods_require (upper : String → String) (repr : Json → String)
    {table : List CheckEntry} (hperm : table.Perm checks) {e : EndpointCall} {above : Calls}
    {q : ApiCall} (h : MayCall repr e above q) :
    ∃ route ∈ e.routes, (∃ node vmid, q.path = filledIn (placed node vmid) route) ∧
      ∀ node vmid, q.path = filledIn (placed node vmid) route →
        ("node" ∈ (templateOf route).names → Text.SlashFree node) →
          privilegesFor upper table q.method q.path [] =
            .ok ((requiredPrivileges upper checks q.method route).map
              (Check.filledIn (placed node vmid))) := by
  rcases h.path_eq with ⟨route, hroute, hpath⟩
  refine ⟨route, hroute, hpath, fun node vmid hfilled hfree => ?_⟩
  rw [hfilled]
  exact privilegesFor_route upper hperm q.method
    (methodRoutes_lookable (EndpointCall.routes_mem hroute)) (slashFreeFor_placed hfree vmid)

/-- The status of a node requires what is stated for its route, and the list of resources, of
which the table knows nothing and which has no node, nothing. -/
theorem methods_require_witness :
    privilegesFor String.toUpper checks.reverse "GET" "nodes/pve/status" [] =
        .ok (some ⟨[{ path := "/nodes/pve", privileges := ["Sys.Audit"] }]⟩) ∧
      privilegesFor String.toUpper checks.reverse "GET" "cluster/resources" [] = .ok none := by
  constructor
  · have hcall : MayCall strOnly (.reading (.nodeStatus "pve")) []
        (Reading.call (.nodeStatus "pve")) := ⟨rfl, rfl⟩
    rcases methods_require String.toUpper strOnly (List.reverse_perm checks) hcall with
      ⟨route, hroute, -, hrequired⟩
    rcases List.mem_singleton.mp hroute with rfl
    have hpath : (Reading.call (.nodeStatus "pve")).path =
        filledIn (placed "pve" 0) (Reading.route (.nodeStatus "pve")) := by decide +kernel
    have hfound : (requiredPrivileges String.toUpper checks "GET"
        (Reading.route (.nodeStatus "pve"))).map (Check.filledIn (placed "pve" 0)) =
          some ⟨[{ path := "/nodes/pve", privileges := ["Sys.Audit"] }]⟩ := by
      decide +kernel
    exact (hrequired "pve" 0 hpath fun _ => by decide).trans (congrArg Except.ok hfound)
  · have hcall : MayCall strOnly .resources [] resourcesCall := ⟨rfl, rfl⟩
    rcases methods_require String.toUpper strOnly (List.reverse_perm checks) hcall with
      ⟨route, hroute, -, hrequired⟩
    rcases List.mem_singleton.mp hroute with rfl
    have hpath : resourcesCall.path = filledIn (placed "pve" 0) resourcesCall.path := by
      decide +kernel
    have hfound : (requiredPrivileges String.toUpper checks "GET" resourcesCall.path).map
        (Check.filledIn (placed "pve" 0)) = none := by
      decide +kernel
    exact (hrequired "pve" 0 hpath fun _ => by decide).trans (congrArg Except.ok hfound)

end AioProxmox
