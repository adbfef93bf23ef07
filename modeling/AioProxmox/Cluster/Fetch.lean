import AioProxmox.Cluster.Endpoints

/-!
# Cluster - one fetch of the resource list

What {lit}`ClusterEndpoint.resources` sends, returns and leaves behind.

Main results:

- Definitions {lit}`fetched` and {lit}`ClusterView.adopt`: what an answer is turned into, and
  what becomes of the client.
- Theorem {lit}`exec_resources`: a fetch is one call, whatever it is answered.
-/

namespace AioProxmox

open Coroutine

/-- The fetch of the list. -/
def resourcesCall : ApiCall where
  method := "GET"
  path := "cluster/resources"
  keywords := []

/-- What a fetch ends in. -/
def fetched (from_ : FromDict) : Except Exc Json → Except Exc (List ClusterResource)
  | .ok raw => .ok (deserializeResourceList from_ raw)
  | .error e => .error e

/-- What the client holds after a fetch. -/
def ClusterView.adopt (from_ : FromDict) (view : ClusterView) : Except Exc Json → ClusterView
  | .ok raw =>
      { clusterResources := some (deserializeResourceList from_ raw)
        clusterCache := pveClusterCache (deserializeResourceList from_ raw) }
  | .error _ => view

/-- What a fetch returns is what the client then holds. -/
theorem adopt_clusterResources {from_ : FromDict} {view : ClusterView} {reply : Except Exc Json}
    {fresh : List ClusterResource} (h : fetched from_ reply = .ok fresh) :
    (view.adopt from_ reply).clusterResources = some fresh := by
  cases reply with
  | error e => contradiction
  | ok raw =>
      cases h
      rfl

/-! ## Runs -/

section Runs

variable {τ : Type} (from_ : FromDict) (i : τ) (n : Nat)
  (w : World τ ClusterView ApiCall (Except Exc Json) Remark)

/-- Without a list there is nothing to hold. -/
theorem exec_heldResources (E : Surroundings ClusterView (Except Exc Json)) :
    heldResources.exec E i n w =
      match w.state.clusterResources with
      | some held => ⟨.ok held, n, w⟩
      | none =>
          ⟨.error (.attributeError "'ProxmoxVE' object has no attribute 'cluster_resources'"),
            n, w⟩ := by
  rw [heldResources, Co.exec_bind, Co.exec_state]
  simp only
  cases w.state.clusterResources <;> rfl

/-- One call is sent and answered. -/
theorem exec_clientRequest (E : Surroundings ClusterView (Except Exc Json)) (method path : String)
    (keywords : List (String × Dict)) :
    ∃ w', (clientRequest method path keywords).exec E i n w = ⟨E.reply n, n + 1, w'⟩ ∧
      w'.sends = w.sends ++ [{ method := method, path := path, keywords := keywords }] := by
  refine ⟨_, Co.exec_await i n E _ w, ?_⟩
  simp [World.sends]

/-- What is done with an answer is done at once. -/
theorem exec_adoptList (E : Surroundings ClusterView (Except Exc Json)) (r : Except Exc Json) :
    (Co.ofExcept r >>= adoptList from_).exec E i n w =
      ⟨fetched from_ r, n, { w with state := w.state.adopt from_ r }⟩ := by
  cases r with
  | error e => rfl
  | ok raw =>
      rw [Co.exec_bind_ok (Co.exec_ofExcept E i n w _)]
      simp only [adoptList, Co.exec_bind, Co.exec_modify, exec_heldResources, fetched,
        ClusterView.adopt]

/-- A fetch is one call, whatever it is answered. -/
theorem exec_resources (E : Surroundings ClusterView (Except Exc Json)) :
    ∃ w', (resources from_).exec E i n w = ⟨fetched from_ (E.reply n), n + 1, w'⟩ ∧
      w'.sends = w.sends ++ [resourcesCall] ∧
      w'.state = (E.during n w.state).adopt from_ (E.reply n) := by
  refine ⟨_, exec_adoptList from_ i (n + 1) _ E (E.reply n), ?_, rfl⟩
  simp [World.sends, resourcesCall]

end Runs

end AioProxmox
