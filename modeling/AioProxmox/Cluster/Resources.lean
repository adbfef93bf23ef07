import AioProxmox.Client.Values

/-!
# Cluster - the resource list

The resource classes as far as the package reads them, and the tolerant parser of
{lit}`cluster/resources`.  Reading one item into its class is the business of a library:
it is a parameter here, which has no value where that raises.

Main results:

- Definition {lit}`deserializeResourceList`: the parser.
- Theorem {lit}`deserializeResourceList_append`: no item affects another.
-/

namespace AioProxmox

/-! ## The classes -/

/-- {lit}`OperationalStatus`. -/
inductive OperationalStatus where
  | online
  | offline
  | running
  | stopped
  | available
  | unknown
  | ok
deriving DecidableEq

/-- {lit}`OperationalStatus(text)`. -/
def OperationalStatus.ofText : String → OperationalStatus
  | "online" => online
  | "offline" => offline
  | "running" => running
  | "stopped" => stopped
  | "available" => available
  | "ok" => ok
  | _ => unknown

/-- {lit}`ResourceType`. -/
inductive ResourceType where
  | node
  | qemu
  | lxc
  | storage
  | network
  | unknown
deriving DecidableEq

/-- {lit}`ClusterNodeResource`, of which no field has a default.  A field of type
{lit}`str` holds {lit}`str` of what the item has. -/
structure ClusterNodeResource where
  id : String
  node : String
  status : OperationalStatus
  cpu : ℚ
  maxcpu : Int
  mem : Int
  maxmem : Int
  disk : Int
  maxdisk : Int
  uptime : Int
  resourceType : ResourceType

/-- {lit}`ClusterQemuResource`. -/
structure ClusterQemuResource where
  vmid : Int
  node : String
  status : OperationalStatus
  template : Int

/-- {lit}`ClusterContainerResource`. -/
structure ClusterContainerResource where
  vmid : Int
  node : String
  status : OperationalStatus
  template : Int

/-- {lit}`ClusterStorageResource`. -/
structure ClusterStorageResource where
  storage : String
  node : String

/-- {lit}`ClusterNetworkResource`. -/
structure ClusterNetworkResource where
  id : String

/-- An item of the collection. -/
inductive ClusterResource where
  | node (res : ClusterNodeResource)
  | qemu (res : ClusterQemuResource)
  | lxc (res : ClusterContainerResource)
  | storage (res : ClusterStorageResource)
  | network (res : ClusterNetworkResource)

namespace ClusterResource

/-- The nodes among the resources. -/
def node? : ClusterResource → Option ClusterNodeResource
  | .node res => some res
  | _ => none

/-- The virtual machines among the resources. -/
def qemu? : ClusterResource → Option ClusterQemuResource
  | .qemu res => some res
  | _ => none

/-- The containers among the resources. -/
def lxc? : ClusterResource → Option ClusterContainerResource
  | .lxc res => some res
  | _ => none

/-- The storages among the resources. -/
def storage? : ClusterResource → Option ClusterStorageResource
  | .storage res => some res
  | _ => none

end ClusterResource

/-- {lit}`from_dict` of each class; none where it raises. -/
structure FromDict where
  node : Dict → Option ClusterNodeResource
  qemu : Dict → Option ClusterQemuResource
  lxc : Dict → Option ClusterContainerResource
  storage : Dict → Option ClusterStorageResource
  network : Dict → Option ClusterNetworkResource

/-! ## The parser -/

section Parser

variable (from_ : FromDict)

/-- One turn of the loop: an item that is a dictionary of a known type and can be read. -/
def deserializeResource : Json → Option ClusterResource
  | .obj item =>
      match item.lookup "type" with
      | some (.str "node") => (from_.node item).map .node
      | some (.str "qemu") => (from_.qemu item).map .qemu
      | some (.str "lxc") => (from_.lxc item).map .lxc
      | some (.str "storage") => (from_.storage item).map .storage
      | some (.str "network") => (from_.network item).map .network
      | _ => none
  | _ => none

/-- {lit}`deserialize_resource_list`. -/
def deserializeResourceList : Json → List ClusterResource
  | .arr value => value.filterMap (deserializeResource from_)
  | _ => []

variable {from_}

/-- The items on either side are parsed as they are alone. -/
theorem deserializeResourceList_append (before after : List Json) :
    deserializeResourceList from_ (.arr (before ++ after)) =
      deserializeResourceList from_ (.arr before) ++ deserializeResourceList from_ (.arr after) :=
  List.filterMap_append

end Parser

/-! ## Reading numbers and texts -/

/-- {lit}`float(value)`, of a number. -/
def floatOf : Json → Option ℚ
  | .int n => some n
  | .float q => some q
  | _ => none

/-- {lit}`int(value)`, of a number. -/
def intOf : Json → Option Int
  | .int n => some n
  | .float q => some (q.num.tdiv q.den)
  | _ => none

/-- {lit}`OperationalStatus(value)`. -/
def statusOf : Json → OperationalStatus
  | .str text => .ofText text
  | _ => .unknown

/-- {lit}`str(value)` of a text; the names of nodes are texts. -/
def textOf : Json → String
  | .str text => text
  | _ => ""

section Readers

variable (text : Json → String)

/-- The item of a node, where its figures are numbers and {lit}`text` is {lit}`str`. -/
def readNode (item : Dict) : Option ClusterNodeResource := do
  let id ← item.lookup "id"
  let node ← item.lookup "node"
  let status ← item.lookup "status"
  let cpu ← (item.lookup "cpu").bind floatOf
  let maxcpu ← (item.lookup "maxcpu").bind intOf
  let mem ← (item.lookup "mem").bind intOf
  let maxmem ← (item.lookup "maxmem").bind intOf
  let disk ← (item.lookup "disk").bind intOf
  let maxdisk ← (item.lookup "maxdisk").bind intOf
  let uptime ← (item.lookup "uptime").bind intOf
  let _ ← item.lookup "type"
  return { id := text id, node := text node, status := statusOf status, cpu, maxcpu, mem, maxmem,
           disk, maxdisk, uptime, resourceType := .node }

/-- The item of a virtual machine, likewise. -/
def readQemu (item : Dict) : Option ClusterQemuResource := do
  let vmid ← (item.lookup "vmid").bind intOf
  let node ← item.lookup "node"
  let status ← item.lookup "status"
  let template ← (item.lookup "template").bind intOf
  return { vmid, node := text node, status := statusOf status, template }

/-- {lit}`from_dict` of nodes and virtual machines whose figures are numbers; the other classes
read nothing. -/
def readItems : FromDict where
  node := readNode text
  qemu := readQemu text
  lxc _ := none
  storage _ := none
  network _ := none

end Readers

end AioProxmox
