import AioProxmox.Client.Pipeline
import AioProxmox.Cluster.Cache

/-!
# Cluster - the endpoints

The methods of the endpoint classes that keep the resource list and use it, as
coroutines: each awaited {lit}`client.request` is a call, answered by the value it returns
or the exception it raises.  Of the client the endpoints hold in common the resource list,
an attribute that the constructor declares and does not assign, and its index.

Main definitions:

- {lit}`ApiCall`: a call of {lit}`client.request` as it is written, with its keywords.
- {lit}`resources`: the fetch that assigns the list and its index.
- {lit}`qemuCurrent` and {lit}`lxcCurrent`: the status of a guest wherever it runs.
-/

namespace AioProxmox

open Coroutine

/-! ## Calling the client -/

/-- {lit}`client.request(method, path, **keywords)`. -/
structure ApiCall where
  method : String
  path : String
  keywords : List (String × Dict)

/-- What the endpoints keep on the client. -/
structure ClusterView where
  clusterResources : Option (List ClusterResource)
  clusterCache : ClusterCache

/-- The constructor declares {lit}`cluster_resources` and assigns {lit}`cluster_cache`. -/
def ClusterView.init : ClusterView where
  clusterResources := none
  clusterCache := {}

/-- A coroutine of an endpoint. -/
abbrev Api (α : Type) := Co ClusterView ApiCall (Except Exc Json) Exc Remark α

/-- {lit}`await self.client.request(...)`. -/
def clientRequest (method path : String) (keywords : List (String × Dict)) : Api Json :=
  Co.await { method := method, path := path, keywords := keywords }

/-! ## The resource list -/

/-- {lit}`self.client.cluster_resources`. -/
def heldResources : Api (List ClusterResource) := do
  let view ← Co.state
  match view.clusterResources with
  | some held => return held
  | none => throw (.attributeError "'ProxmoxVE' object has no attribute 'cluster_resources'")

section Endpoints

variable (from_ : FromDict)

/-- What {lit}`resources` does with an answer: the list is assigned before its index is
built. -/
def adoptList (raw : Json) : Api (List ClusterResource) := do
  Co.modify fun view =>
    { view with clusterResources := some (deserializeResourceList from_ raw) }
  let held ← heldResources
  Co.modify fun view => { view with clusterCache := pveClusterCache held }
  heldResources

/-- {lit}`ClusterEndpoint.resources`. -/
def resources : Api (List ClusterResource) := do
  let raw ← clientRequest "GET" "cluster/resources" []
  adoptList from_ raw

/-! ## The status of a guest -/

/-- What the two classes of guest differ in. -/
structure GuestKind where
  path : String
  missing : Int → String
  unexpected : String

/-- {lit}`except Exception`, which a cancellation is not. -/
def untracked (vmid : Int) (err : Exc) : Api (Option String) :=
  if err = .cancelledError then throw err
  else throw (.resourceNotFoundError
    ("Failed to fetch resource map while tracking VMID " ++ toString vmid))

/-- {lit}`if not node`: an empty name is none. -/
def present : Option String → Option String
  | some node => if node = "" then none else some node
  | none => none

/-- The fetch in a guest's {lit}`current`, and the lookup after it. -/
def refetch (vmid : Int) : Api (Option String) :=
  tryCatch
    (do
      let _ ← resources from_
      let held ← heldResources
      return pveFindNodeInCache held vmid)
    (untracked vmid)

/-- The node of a guest, with at most one fetch. -/
def locate (kind : GuestKind) (vmid : Int) : Api String := do
  let held ← heldResources
  match present (pveFindNodeInCache held vmid) with
  | some node => return node
  | none => do
      let found ← refetch from_ vmid
      match present found with
      | some node => return node
      | none => throw (.resourceNotFoundError (kind.missing vmid))

/-- {lit}`f"nodes/\x7bnode\x7d/\x7bkind\x7d/\x7bvmid\x7d/status/current"`. -/
def statusPath (kind : GuestKind) (node : String) (vmid : Int) : String :=
  "nodes/" ++ node ++ "/" ++ kind.path ++ "/" ++ toString vmid ++ "/status/current"

/-- {lit}`current` of a kind of guest, whose class reads a dictionary with {lit}`read`. -/
def current {β : Type} (kind : GuestKind) (read : Dict → Except Exc β) (vmid : Int) : Api β := do
  let node ← locate from_ kind vmid
  let raw ← clientRequest "GET" (statusPath kind node vmid) []
  match raw with
  | .obj fields => Co.ofExcept (read fields)
  | v => throw (.proxmoxError (kind.unexpected ++ ", got <class '" ++ v.typeName ++ "'>"))

/-- A virtual machine. -/
def qemuKind : GuestKind where
  path := "qemu"
  missing vmid :=
    "Target QEMU VMID " ++ toString vmid ++ " could not be located anywhere in the cluster."
  unexpected := "Expected dict response from qemu VM status"

/-- A container. -/
def lxcKind : GuestKind where
  path := "lxc"
  missing vmid :=
    "Target container VMID " ++ toString vmid ++ " could not be located anywhere in the cluster."
  unexpected := "Expected dict response from LCX status"

/-- {lit}`QemuStatusEndpoint.current`. -/
def qemuCurrent {β : Type} (read : Dict → Except Exc β) (vmid : Int) : Api β :=
  current from_ qemuKind read vmid

/-- {lit}`LXCStatusEndpoint.current`. -/
def lxcCurrent {β : Type} (read : Dict → Except Exc β) (vmid : Int) : Api β :=
  current from_ lxcKind read vmid

end Endpoints

end AioProxmox
