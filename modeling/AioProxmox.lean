import AioProxmox.Collections.Distinct
import AioProxmox.Coroutine.RelyGuarantee
import AioProxmox.Client.State
import AioProxmox.Client.KnownHosts
import AioProxmox.Client.Pipeline
import AioProxmox.Client.Runs
import AioProxmox.Collections.Cyclic
import AioProxmox.Client.HostList
import AioProxmox.Client.LoginRuns
import AioProxmox.Client.Credentials
import AioProxmox.Coroutine.Effects
import AioProxmox.Client.RequestRuns
import AioProxmox.Client.Recovery
import AioProxmox.Client.Heard
import AioProxmox.Client.Repetition
import AioProxmox.Client.Rules
import AioProxmox.Client.Selection
import AioProxmox.Client.Burst
import AioProxmox.Coroutine.Invariance
import AioProxmox.Client.LoginRules
import AioProxmox.Client.Traffic
import AioProxmox.Client.Renewals
import AioProxmox.Collections.Polling
import AioProxmox.Client.Search
import AioProxmox.Client.Verdicts
import AioProxmox.Web.Authority
import AioProxmox.Client.Addresses
import AioProxmox.Collections.Table
import AioProxmox.Routing.Templates
import AioProxmox.Privileges.Checks
import AioProxmox.Privileges.Paths
import AioProxmox.Privileges.Lookup
import AioProxmox.Logic.Ways
import AioProxmox.Privileges.Generator
import AioProxmox.Cluster.Resources
import AioProxmox.Cluster.Summary
import AioProxmox.Cluster.Cache
import AioProxmox.Cluster.Endpoints
import AioProxmox.Cluster.GuestStatus
import AioProxmox.Cluster.Refresh
import AioProxmox.Cluster.Commands
import AioProxmox.Cluster.Wire
import AioProxmox.Cluster.Pollers
import AioProxmox.Cluster.Totals
import AioProxmox.Access.Permissions
import AioProxmox.Cluster.GuestLookup
import AioProxmox.Cluster.SharedStorage
import AioProxmox.Client.Probes
import AioProxmox.Cluster.HighAvailability
import AioProxmox.Collections.Maxima
import AioProxmox.Guests.Filesystems
import AioProxmox.Guests.Interfaces
import AioProxmox.Disks.Smart
import AioProxmox.Disks.SmartText
import AioProxmox.Client.Parameters
import AioProxmox.Schema.Flatten
import AioProxmox.Routing.Reader
import AioProxmox.Coroutine.Contracts
import AioProxmox.System.Calls
import AioProxmox.System.Conduct
import AioProxmox.System.Provenance
import AioProxmox.System.Sessions
import AioProxmox.System.Turns
import AioProxmox.Coroutine.Conversations
import AioProxmox.System.Conversations
import AioProxmox.System.Costs
import AioProxmox.Coroutine.Layers
import AioProxmox.Cluster.Readers
import AioProxmox.System.Methods
import AioProxmox.System.Availability
import AioProxmox.Coroutine.Moments
import AioProxmox.System.Freshness
import AioProxmox.System.View
import AioProxmox.System.Requirements
import AioProxmox.Text.Literals
import AioProxmox.Privileges.Rendering
import AioProxmox.Text.Readers
import AioProxmox.Privileges.Messages
import AioProxmox.Routing.Evaluation
import AioProxmox.Text.Hexadecimal
import AioProxmox.Nodes.Ports
