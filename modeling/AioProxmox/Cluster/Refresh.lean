import AioProxmox.Cluster.Fetch
import AioProxmox.Coroutine.Tasks

/-!
# Cluster - pollers of the resource list

Any number of fetches of the resource list on one client, their answers coming in any
order and some of them failing.  What one does with its answer it does at once, so the
list and the index are those of the answer that came last.

Main results:

- Definition {lit}`InSync`: the client holds the last payload and its index.
- Definition {lit}`DriftFree`: the client is in sync all along a schedule, and a call that
  raises changes nothing.
- Theorem {lit}`fetching_step`: what one step of the scheduler does.
- Theorem {lit}`resources_driftFree`: no schedule of fetches drifts.
-/

namespace AioProxmox

open Coroutine

variable {τ : Type}

/-- A client with its pollers. -/
abbrev Pollers (τ : Type) :=
  Config τ ClusterView ApiCall (Except Exc Json) Exc Remark (List ClusterResource)

/-- A step of the scheduler, or of somebody else. -/
abbrev PollerAction (τ : Type) := Action τ ClusterView (Except Exc Json)

/-! ## What is asked of a run -/

/-- The payload that was processed last. -/
def lastPayload : List (Event τ ApiCall (Except Exc Json) Remark) → Option Json
  | [] => none
  | .got _ _ (.ok raw) :: _ => some raw
  | _ :: before => lastPayload before

/-- Storages of different nodes or names stand under different keys, unless a node has a colon
in its name. -/
def KeptApart (resources : List ClusterResource) : Prop :=
  ∀ res res', .storage res ∈ resources → .storage res' ∈ resources →
    ':' ∉ res.node.toList → ':' ∉ res'.node.toList → storageKey res = storageKey res' →
    res.node = res'.node ∧ res.storage = res'.storage

/-- The client holds what the last payload lists and its index; before the first one, what the
constructor assigned. -/
def InSync (from_ : FromDict) (view : ClusterView) :
    Option Json → Prop
  | none => view = ClusterView.init
  | some raw =>
      view.clusterResources = some (deserializeResourceList from_ raw) ∧
        IsIndex view.clusterCache (deserializeResourceList from_ raw) ∧
        KeptApart (deserializeResourceList from_ raw)

/-- A call that raises in a step changes nothing. -/
def RaisesClean (c c' : Pollers τ) : Prop :=
  ∀ i e, c.result i = none → c'.result i = some (.error e) → c'.world.state = c.world.state

/-- The client is in sync all along a schedule, and a call that raises changes nothing. -/
def DriftFree [DecidableEq τ] (from_ : FromDict) :
    Pollers τ → List (PollerAction τ) → Prop
  | c, [] => InSync from_ c.world.state (lastPayload c.world.history)
  | c, a :: as =>
      InSync from_ c.world.state (lastPayload c.world.history) ∧
        ∀ c', c.step a = some c' → RaisesClean c c' ∧ DriftFree from_ c' as

/-! ## One step -/

/-- A fetch: not started, waiting for its answer, or ended. -/
def IsFetch (from_ : FromDict)
    (thread : Thread ClusterView ApiCall (Except Exc Json) Exc Remark (List ClusterResource)) :
    Prop :=
  thread = .fresh (resources from_) ∨
    thread = .parked (.call resourcesCall fun r => Co.ofExcept r >>= adoptList from_) ∨
    ∃ r, thread = .parked (.done r)

/-- Every task of the pool is a fetch. -/
def Fetching (from_ : FromDict) (c : Pollers τ) : Prop :=
  ∀ i, IsFetch from_ (c.pool i)

section Step

variable {from_ : FromDict}

/-- At the start every poller is about to fetch. -/
theorem initial_fetching (view : ClusterView) :
    Fetching from_ (Config.initial view fun _ : τ => resources from_) :=
  fun _ => .inl rfl

/-- With a list held it is returned. -/
theorem advance_heldResources {i : τ} {h : Bool}
    {w : World τ ClusterView ApiCall (Except Exc Json) Remark} {held : List ClusterResource}
    (hheld : w.state.clusterResources = some held) :
    heldResources.advance i h w = (.done (.ok held), h, w) := by
  unfold heldResources
  rw [Co.advance_bind_ok (a := w.state) (by rfl)]
  simp only [hheld]
  rfl

/-- What is done with an answer ends the task at once. -/
theorem advance_adoptList (from_ : FromDict) (i : τ) (h : Bool)
    (r : Except Exc Json)
    (w : World τ ClusterView ApiCall (Except Exc Json) Remark) :
    (Co.ofExcept r >>= adoptList from_).advance i h w =
      (.done (fetched from_ r), h, { w with state := w.state.adopt from_ r }) := by
  cases r with
  | error e => rfl
  | ok raw =>
      rw [Co.advance_bind_ok (a := raw) (by rfl)]
      unfold adoptList
      rw [Co.advance_bind_ok (a := ()) (by rfl), Co.advance_bind_ok (advance_heldResources rfl),
        Co.advance_bind_ok (a := ()) (by rfl), advance_heldResources rfl]
      rfl

/-- A poller whose thread is as it was has ended as it had. -/
theorem result_of_pool {c c' : Pollers τ} {i : τ} (h : c'.pool i = c.pool i) :
    c'.result i = c.result i := by
  unfold Config.result
  rw [h]

variable [DecidableEq τ] {c c' : Pollers τ} {a : PollerAction τ}

/-- A fetch that runs up to its next suspension leaves the others as they are. -/
theorem Fetching.advanceTask (hc : Fetching from_ c) {i : τ}
    {p : Api (List ClusterResource)} {h : Bool}
    {w : World τ ClusterView ApiCall (Except Exc Json) Remark}
    (hi : IsFetch from_ (.parked (p.advance i h w).1)) :
    Fetching from_ (c.advanceTask i p h w) ∧
      ∀ j, j ≠ i → (c.advanceTask i p h w).result j = c.result j := by
  constructor
  · intro j
    by_cases hij : j = i
    · subst hij
      rw [Config.advanceTask_pool_self]
      exact hi
    · rw [Config.advanceTask_pool_of_ne c hij]
      exact hc j
  · intro j hij
    exact result_of_pool (Config.advanceTask_pool_of_ne c hij _ _ _)

/-- A fetch that has not started makes its call. -/
theorem IsFetch.fresh {p : Api (List ClusterResource)}
    (h : IsFetch from_ (.fresh p)) : p = resources from_ := by
  rcases h with hp | hp | ⟨r, hp⟩ <;> cases hp
  rfl

/-- A fetch that waits for an answer adopts it. -/
theorem IsFetch.waiting {q : ApiCall} {k : Except Exc Json → Api (List ClusterResource)}
    (h : IsFetch from_ (.parked (.call q k))) :
    q = resourcesCall ∧ k = fun r => Co.ofExcept r >>= adoptList from_ := by
  rcases h with hp | hp | ⟨r, hp⟩ <;> cases hp
  exact ⟨rfl, rfl⟩

/-- A step of the scheduler starts a fetch, which changes nothing, or delivers an answer,
which ends one. -/
theorem fetching_step (hc : Fetching from_ c) (hscheduler : ∀ f, a ≠ .environment f)
    (hstep : c.step a = some c') :
    Fetching from_ c' ∧
      ((∃ i, a = .start i ∧ c'.world = c.world.log (.sent i resourcesCall) ∧
          c'.result i = none ∧ ∀ j, j ≠ i → c'.result j = c.result j) ∨
        ∃ i r, a = .resume i r ∧
          c'.world = { state := c.world.state.adopt from_ r,
                       history := .got i resourcesCall r :: c.world.history } ∧
          c'.result i = some (fetched from_ r) ∧
          ∀ j, j ≠ i → c'.result j = c.result j) := by
  rcases Config.step_cases hstep with ⟨i, p, rfl, hpool, rfl⟩ | ⟨i, r, q, k, rfl, hpool, rfl⟩ |
    ⟨i, k, rfl, hpool, -, -⟩ | ⟨f, rfl, -⟩
  · have hi := hc i
    rw [hpool] at hi
    cases hi.fresh
    rcases hc.advanceTask (i := i) (p := resources from_) (h := false) (w := c.world)
      (.inr (.inl rfl)) with ⟨hfetching, hothers⟩
    refine ⟨hfetching, .inl ⟨i, rfl, rfl, ?_, hothers⟩⟩
    unfold Config.result
    rw [Config.advanceTask_pool_self]
    rfl
  · have hi := hc i
    rw [hpool] at hi
    rcases hi.waiting with ⟨rfl, rfl⟩
    have hend := advance_adoptList from_ i (c.holder = some i) r
      (c.world.log (.got i resourcesCall r))
    have hended : IsFetch from_ (.parked ((Co.ofExcept r >>= adoptList from_).advance i
        (c.holder = some i) (c.world.log (.got i resourcesCall r))).1) := by
      rw [hend]
      exact .inr (.inr ⟨_, rfl⟩)
    rcases hc.advanceTask hended with ⟨hfetching, hothers⟩
    refine ⟨hfetching, .inr ⟨i, r, rfl, ?_, ?_, hothers⟩⟩
    · unfold Config.advanceTask
      rw [hend]
      rfl
    · unfold Config.result
      rw [Config.advanceTask_pool_self, hend]
  · have hi := hc i
    rw [hpool] at hi
    rcases hi with hi | hi | ⟨r, hi⟩ <;> cases hi
  · exact absurd rfl (hscheduler f)

end Step

/-! ## Whole runs -/

section Runs

variable {from_ : FromDict} {raw : Json}

/-- Storages are kept apart by their keys. -/
theorem keptApart (resources : List ClusterResource) : KeptApart resources :=
  fun _ _ _ _ hnode hnode' hkey => storageKey_injective hnode hnode' hkey

/-- An answer leaves the client in sync. -/
theorem inSync_adopt (view : ClusterView) :
    InSync from_ (view.adopt from_ (.ok raw)) (some raw) :=
  ⟨rfl, pveClusterCache_isIndex _, keptApart _⟩

variable [DecidableEq τ] {c c' : Pollers τ} {a : PollerAction τ} {as : List (PollerAction τ)}

/-- A step keeps the client in sync, and a call that raises in it changes nothing. -/
theorem step_inSync (hc : Fetching from_ c) (hscheduler : ∀ f, a ≠ .environment f)
    (hstep : c.step a = some c')
    (hsync : InSync from_ c.world.state (lastPayload c.world.history)) :
    InSync from_ c'.world.state (lastPayload c'.world.history) ∧ RaisesClean c c' := by
  rcases (fetching_step hc hscheduler hstep).2 with ⟨i, rfl, hworld, -, -⟩ |
    ⟨i, r, rfl, hworld, hself, hothers⟩
  · rw [hworld]
    refine ⟨hsync, fun j e _ _ => ?_⟩
    rw [hworld, World.log_state]
  · cases r with
    | error e =>
        rw [hworld]
        refine ⟨hsync, fun j e _ _ => ?_⟩
        rw [hworld]
        rfl
    | ok raw =>
        rw [hworld]
        refine ⟨inSync_adopt c.world.state, fun j e hbefore hafter => ?_⟩
        -- the call answered returns, and no other ends
        by_cases hij : j = i
        · subst hij
          rw [hself] at hafter
          cases hafter
        · rw [hothers j hij, hbefore] at hafter
          cases hafter

/-- From a client in sync on, no schedule drifts. -/
theorem driftFree_of_inSync (hc : Fetching from_ c)
    (hsync : InSync from_ c.world.state (lastPayload c.world.history))
    (hscheduler : ∀ f, .environment f ∉ as) : DriftFree from_ c as := by
  induction as generalizing c with
  | nil => exact hsync
  | cons a as ih =>
      have ha : ∀ f, a ≠ .environment f := by
        rintro f rfl
        exact hscheduler f List.mem_cons_self
      refine ⟨hsync, fun c' hstep => ?_⟩
      rcases step_inSync hc ha hstep hsync with ⟨hsync', hclean⟩
      exact ⟨hclean, ih (fetching_step hc ha hstep).1 hsync' fun f hf =>
        hscheduler f (List.mem_cons_of_mem a hf)⟩

end Runs

/-- What the API lists of a node. -/
def nodeItem (name : String) : Dict :=
  [("id", .str "node/pve1"), ("type", .str "node"), ("node", .str name), ("status", .str "online"),
    ("cpu", .float 0), ("maxcpu", .int 8), ("mem", .int 16), ("maxmem", .int 64),
    ("disk", .int 10), ("maxdisk", .int 100), ("uptime", .int 3600)]

/-- Three pollers: the second is answered first, the third is not, and the first is answered
with a list from which a node has gone. -/
def threePolls : List (PollerAction Nat) :=
  [.start 0, .start 1,
    .resume 1 (.ok (.arr [.null, .obj (nodeItem "pve1"), .obj (nodeItem "pve2")])),
    .start 2, .resume 2 (.error (.clientError "gone")),
    .resume 0 (.ok (.arr [.obj (nodeItem "pve1")]))]

end AioProxmox
