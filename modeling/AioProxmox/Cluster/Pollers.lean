import AioProxmox.Cluster.Refresh
import AioProxmox.Cluster.Wire
import AioProxmox.Coroutine.Refinement

/-!
# Cluster - pollers over the client

The pollers of the resource list, each of whose calls is a request of the client that
renews tickets, looks for other hosts and is repeated, all of them interleaved.  Nothing of
that reaches the list: the pollers do what pollers do whose answers come at once.

Main results:

- Theorem {lit}`served_pollers_refine`: whatever the pollers over the client reach, the
  pollers of the model reach.
- Theorem {lit}`served_pollers_inSync`: they keep the list and the index together.
-/

namespace AioProxmox

open Coroutine

variable {τ : Type} {from_ : FromDict}

/-- A fetch leaves the lock to the client. -/
theorem resources_lockless (from_ : FromDict) :
    (resources from_).Lockless := by
  have hheld : heldResources.Lockless := by
    refine Co.Lockless.bind Co.Lockless.state fun view => ?_
    cases view.clusterResources <;> exact trivial
  exact (Co.Lockless.await _).bind fun raw => (Co.Lockless.modify _).bind fun _ =>
    hheld.bind fun _ => (Co.Lockless.modify _).bind fun _ => hheld

variable [DecidableEq τ]

/-- Whatever pollers reach is in sync. -/
theorem pollers_inSync {d : Pollers τ}
    (hrun : Config.Reaches Config.SchedulerOnly
      (Config.initial ClusterView.init fun _ : τ => resources from_) d) :
    InSync from_ d.world.state (lastPayload d.world.history) := by
  refine (hrun.invariant
    (I := fun c => Fetching from_ c ∧ InSync from_ c.world.state (lastPayload c.world.history))
    (fun c a c' hscheduler hstep hc => ?_) ⟨initial_fetching _, rfl⟩).2
  rcases hc with ⟨hfetching, hsync⟩
  exact ⟨(fetching_step hfetching hscheduler hstep).1,
    (step_inSync hfetching hscheduler hstep hsync).1⟩

/-- Pollers over the client, with the client at the start. -/
def servedPollers (τ : Type) (from_ : FromDict) (m : Machine) :
    Config τ (ClusterView × Machine) Exchange Outcome Exc Remark (List ClusterResource) :=
  Config.initial (ClusterView.init, m) fun _ => (resources from_).servedBy ApiCall.serve

/-- Whatever the pollers over the client reach, pollers whose answers come at once reach. -/
theorem served_pollers_refine {m : Machine}
    {d : Config τ (ClusterView × Machine) Exchange Outcome Exc Remark (List ClusterResource)}
    (hrun : Config.Reaches Config.FirstKept (servedPollers τ from_ m) d) :
    ∃ a : Pollers τ, Config.Reaches Config.SchedulerOnly
        (Config.initial ClusterView.init fun _ => resources from_) a ∧
      a.world.state = d.world.state.1 ∧ ∀ i, a.result i = d.result i :=
  hrun.servedBy fun _ => resources_lockless from_

/-- The pollers over the client keep the list and its index together. -/
theorem served_pollers_inSync {m : Machine}
    {d : Config τ (ClusterView × Machine) Exchange Outcome Exc Remark (List ClusterResource)}
    (hrun : Config.Reaches Config.FirstKept (servedPollers τ from_ m) d) :
    ∃ payload, InSync from_ d.world.state.1 payload := by
  rcases served_pollers_refine hrun with ⟨a, hreach, hstate, -⟩
  have hsync := pollers_inSync hreach
  rw [hstate] at hsync
  exact ⟨_, hsync⟩

end AioProxmox
