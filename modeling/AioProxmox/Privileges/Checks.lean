import Mathlib.Data.List.Basic

/-!
# Privileges - what the API checks

The table of checks that the package carries: for a method and the template of a route,
the ways to satisfy what the API asks for.
-/

namespace AioProxmox

/-- {lit}`CHECKS`: under a method and a template the alternatives, each with its ACL
path, the privileges, and whether one of them is enough. -/
def checks : List ((String × String) × List (String × List String × Bool)) :=
  [(("GET", "cluster/backup-info/not-backed-up"), [("/", ["Sys.Audit"], false)]),
   (("GET", "cluster/ceph/status"), [("/", ["Sys.Audit", "Datastore.Audit"], true)]),
   (("GET", "cluster/ha/status/current"), [("/", ["Sys.Audit"], false)]),
   (("GET", "cluster/status"), [("/", ["Sys.Audit"], false)]),
   (("GET", "nodes/\x7bnode\x7d/apt/update"), [("/nodes/\x7bnode\x7d", ["Sys.Modify"], false)]),
   (("GET", "nodes/\x7bnode\x7d/disks/list"),
     [("/", ["Sys.Audit"], false), ("/nodes/\x7bnode\x7d", ["Sys.Audit"], false)]),
   (("GET", "nodes/\x7bnode\x7d/disks/smart"), [("/", ["Sys.Audit"], false)]),
   (("GET", "nodes/\x7bnode\x7d/disks/zfs"), [("/", ["Sys.Audit"], false)]),
   (("GET", "nodes/\x7bnode\x7d/lxc/\x7bvmid\x7d/interfaces"),
     [("/vms/\x7bvmid\x7d", ["VM.Audit"], false)]),
   (("GET", "nodes/\x7bnode\x7d/lxc/\x7bvmid\x7d/snapshot"),
     [("/vms/\x7bvmid\x7d", ["VM.Audit"], false)]),
   (("GET", "nodes/\x7bnode\x7d/lxc/\x7bvmid\x7d/status/current"),
     [("/vms/\x7bvmid\x7d", ["VM.Audit"], false)]),
   (("GET", "nodes/\x7bnode\x7d/qemu/\x7bvmid\x7d/agent/get-fsinfo"),
     [("/vms/\x7bvmid\x7d", ["VM.GuestAgent.Audit", "VM.GuestAgent.Unrestricted"], true)]),
   (("GET", "nodes/\x7bnode\x7d/qemu/\x7bvmid\x7d/agent/network-get-interfaces"),
     [("/vms/\x7bvmid\x7d", ["VM.GuestAgent.Audit", "VM.GuestAgent.Unrestricted"], true)]),
   (("GET", "nodes/\x7bnode\x7d/qemu/\x7bvmid\x7d/snapshot"),
     [("/vms/\x7bvmid\x7d", ["VM.Audit"], false)]),
   (("GET", "nodes/\x7bnode\x7d/qemu/\x7bvmid\x7d/status/current"),
     [("/vms/\x7bvmid\x7d", ["VM.Audit"], false)]),
   (("GET", "nodes/\x7bnode\x7d/status"), [("/nodes/\x7bnode\x7d", ["Sys.Audit"], false)]),
   (("POST", "cluster/ha/status/arm-ha"), [("/", ["Sys.Console"], false)]),
   (("POST", "cluster/ha/status/disarm-ha"), [("/", ["Sys.Console"], false)]),
   (("POST", "nodes/\x7bnode\x7d/lxc/\x7bvmid\x7d/snapshot"),
     [("/vms/\x7bvmid\x7d", ["VM.Snapshot"], false)]),
   (("POST", "nodes/\x7bnode\x7d/lxc/\x7bvmid\x7d/status/reboot"),
     [("/vms/\x7bvmid\x7d", ["VM.PowerMgmt"], false)]),
   (("POST", "nodes/\x7bnode\x7d/lxc/\x7bvmid\x7d/status/resume"),
     [("/vms/\x7bvmid\x7d", ["VM.PowerMgmt"], false)]),
   (("POST", "nodes/\x7bnode\x7d/lxc/\x7bvmid\x7d/status/shutdown"),
     [("/vms/\x7bvmid\x7d", ["VM.PowerMgmt"], false)]),
   (("POST", "nodes/\x7bnode\x7d/lxc/\x7bvmid\x7d/status/start"),
     [("/vms/\x7bvmid\x7d", ["VM.PowerMgmt"], false)]),
   (("POST", "nodes/\x7bnode\x7d/lxc/\x7bvmid\x7d/status/stop"),
     [("/vms/\x7bvmid\x7d", ["VM.PowerMgmt"], false)]),
   (("POST", "nodes/\x7bnode\x7d/lxc/\x7bvmid\x7d/status/suspend"),
     [("/vms/\x7bvmid\x7d", ["VM.PowerMgmt"], false)]),
   (("POST", "nodes/\x7bnode\x7d/qemu/\x7bvmid\x7d/agent/ping"),
     [("/vms/\x7bvmid\x7d", ["VM.GuestAgent.Audit", "VM.GuestAgent.Unrestricted"], true)]),
   (("POST", "nodes/\x7bnode\x7d/qemu/\x7bvmid\x7d/snapshot"),
     [("/vms/\x7bvmid\x7d", ["VM.Snapshot"], false)]),
   (("POST", "nodes/\x7bnode\x7d/qemu/\x7bvmid\x7d/status/reboot"),
     [("/vms/\x7bvmid\x7d", ["VM.PowerMgmt"], false)]),
   (("POST", "nodes/\x7bnode\x7d/qemu/\x7bvmid\x7d/status/reset"),
     [("/vms/\x7bvmid\x7d", ["VM.PowerMgmt"], false)]),
   (("POST", "nodes/\x7bnode\x7d/qemu/\x7bvmid\x7d/status/resume"),
     [("/vms/\x7bvmid\x7d", ["VM.PowerMgmt"], false)]),
   (("POST", "nodes/\x7bnode\x7d/qemu/\x7bvmid\x7d/status/shutdown"),
     [("/vms/\x7bvmid\x7d", ["VM.PowerMgmt"], false)]),
   (("POST", "nodes/\x7bnode\x7d/qemu/\x7bvmid\x7d/status/start"),
     [("/vms/\x7bvmid\x7d", ["VM.PowerMgmt"], false)]),
   (("POST", "nodes/\x7bnode\x7d/qemu/\x7bvmid\x7d/status/stop"),
     [("/vms/\x7bvmid\x7d", ["VM.PowerMgmt"], false)]),
   (("POST", "nodes/\x7bnode\x7d/qemu/\x7bvmid\x7d/status/suspend"),
     [("/vms/\x7bvmid\x7d", ["VM.PowerMgmt"], false)]),
   (("POST", "nodes/\x7bnode\x7d/status"), [("/nodes/\x7bnode\x7d", ["Sys.PowerMgmt"], false)]),
   (("POST", "nodes/\x7bnode\x7d/wakeonlan"), [("/nodes/\x7bnode\x7d", ["Sys.PowerMgmt"], false)]),
   (("PUT", "nodes/\x7bnode\x7d/lxc/\x7bvmid\x7d/config"),
     [("/vms/\x7bvmid\x7d", ["VM.Config.Disk", "VM.Config.CPU", "VM.Config.Memory",
       "VM.Config.Network", "VM.Config.Options"], true)]),
   (("PUT", "nodes/\x7bnode\x7d/qemu/\x7bvmid\x7d/config"),
     [("/vms/\x7bvmid\x7d", ["VM.Config.Disk", "VM.Config.CDROM", "VM.Config.CPU",
       "VM.Config.Memory", "VM.Config.Network", "VM.Config.HWType", "VM.Config.Options",
       "VM.Config.Cloudinit"], true)])]

/-- The templates of the table, split at their slashes. -/
def checkSegments : List (List String) :=
  [["cluster", "backup-info", "not-backed-up"], ["cluster", "ceph", "status"],
   ["cluster", "ha", "status", "current"], ["cluster", "status"],
   ["nodes", "\x7bnode\x7d", "apt", "update"], ["nodes", "\x7bnode\x7d", "disks", "list"],
   ["nodes", "\x7bnode\x7d", "disks", "smart"], ["nodes", "\x7bnode\x7d", "disks", "zfs"],
   ["nodes", "\x7bnode\x7d", "lxc", "\x7bvmid\x7d", "interfaces"],
   ["nodes", "\x7bnode\x7d", "lxc", "\x7bvmid\x7d", "snapshot"],
   ["nodes", "\x7bnode\x7d", "lxc", "\x7bvmid\x7d", "status", "current"],
   ["nodes", "\x7bnode\x7d", "qemu", "\x7bvmid\x7d", "agent", "get-fsinfo"],
   ["nodes", "\x7bnode\x7d", "qemu", "\x7bvmid\x7d", "agent", "network-get-interfaces"],
   ["nodes", "\x7bnode\x7d", "qemu", "\x7bvmid\x7d", "snapshot"],
   ["nodes", "\x7bnode\x7d", "qemu", "\x7bvmid\x7d", "status", "current"],
   ["nodes", "\x7bnode\x7d", "status"], ["cluster", "ha", "status", "arm-ha"],
   ["cluster", "ha", "status", "disarm-ha"],
   ["nodes", "\x7bnode\x7d", "lxc", "\x7bvmid\x7d", "snapshot"],
   ["nodes", "\x7bnode\x7d", "lxc", "\x7bvmid\x7d", "status", "reboot"],
   ["nodes", "\x7bnode\x7d", "lxc", "\x7bvmid\x7d", "status", "resume"],
   ["nodes", "\x7bnode\x7d", "lxc", "\x7bvmid\x7d", "status", "shutdown"],
   ["nodes", "\x7bnode\x7d", "lxc", "\x7bvmid\x7d", "status", "start"],
   ["nodes", "\x7bnode\x7d", "lxc", "\x7bvmid\x7d", "status", "stop"],
   ["nodes", "\x7bnode\x7d", "lxc", "\x7bvmid\x7d", "status", "suspend"],
   ["nodes", "\x7bnode\x7d", "qemu", "\x7bvmid\x7d", "agent", "ping"],
   ["nodes", "\x7bnode\x7d", "qemu", "\x7bvmid\x7d", "snapshot"],
   ["nodes", "\x7bnode\x7d", "qemu", "\x7bvmid\x7d", "status", "reboot"],
   ["nodes", "\x7bnode\x7d", "qemu", "\x7bvmid\x7d", "status", "reset"],
   ["nodes", "\x7bnode\x7d", "qemu", "\x7bvmid\x7d", "status", "resume"],
   ["nodes", "\x7bnode\x7d", "qemu", "\x7bvmid\x7d", "status", "shutdown"],
   ["nodes", "\x7bnode\x7d", "qemu", "\x7bvmid\x7d", "status", "start"],
   ["nodes", "\x7bnode\x7d", "qemu", "\x7bvmid\x7d", "status", "stop"],
   ["nodes", "\x7bnode\x7d", "qemu", "\x7bvmid\x7d", "status", "suspend"],
   ["nodes", "\x7bnode\x7d", "status"], ["nodes", "\x7bnode\x7d", "wakeonlan"],
   ["nodes", "\x7bnode\x7d", "lxc", "\x7bvmid\x7d", "config"],
   ["nodes", "\x7bnode\x7d", "qemu", "\x7bvmid\x7d", "config"]]

end AioProxmox
