import AioProxmox.Cluster.Fetch

/-!
# Cluster - the status of a guest wherever it runs

A guest is looked for in the list the client holds and, where it is not found there, in a
fresh one.  While the fetch is on its way others may run, and what they leave in the
client's list is overwritten by the answer.

A client that has never fetched the list has no attribute of that name.  Reading it is the
first thing {lit}`current` does, outside its guarded block.

Main results:

- Definition {lit}`Located`: one fetch exactly where the held list lacks the guest, and one
  request to the node of the first guest of the newest list, or a
  {lit}`ResourceNotFoundError`.
- Theorem {lit}`exec_locate`: what locating a guest sends and ends in.
- Theorem {lit}`current_located_iff`: the states of the client and the answers for which a
  guest is located.
-/

namespace AioProxmox

open Coroutine

/-! ## What is asked for -/

/-- The request for the status of a guest on a node. -/
def statusCall (kind : GuestKind) (node : String) (vmid : Int) : ApiCall where
  method := "GET"
  path := statusPath kind node vmid
  keywords := []

/-- Asking for a status is not asking for the list. -/
theorem statusCall_ne (kind : GuestKind) (node : String) (vmid : Int) :
    statusCall kind node vmid ≠ resourcesCall := by
  intro h
  have hpath : statusPath kind node vmid = "cluster/resources" := congrArg ApiCall.path h
  have hchars := congrArg String.toList hpath
  simp [statusPath, String.toList_append] at hchars

/-- There is no list with the guest. -/
def ClusterView.lacks (view : ClusterView) (vmid : Int) : Bool :=
  match view.clusterResources with
  | some held => (firstGuest held vmid).isNone
  | none => true

/-- The newest list: the one held, or the one of the answer where that lacks the guest. -/
def newestList (from_ : FromDict) (view : ClusterView) (vmid : Int) (reply : Except Exc Json) :
    Option (List ClusterResource) :=
  if view.lacks vmid then
    match reply with
    | .ok raw => some (deserializeResourceList from_ raw)
    | .error _ => none
  else view.clusterResources

/-- The fetches of a run that starts with a view of the client. -/
def fetches (view : ClusterView) (vmid : Int) : List ApiCall :=
  if view.lacks vmid then [resourcesCall] else []

/-- The guest is located: after the fetch, if any, one request goes to the node of the first
guest of the newest list, or none is sent and the run ends in
{lit}`ResourceNotFoundError`. -/
def Located {τ β : Type} (from_ : FromDict) (kind : GuestKind) (vmid : Int)
    (reply : Except Exc Json) (w : World τ ClusterView ApiCall (Except Exc Json) Remark)
    (ending : Ending τ ClusterView ApiCall (Except Exc Json) Exc Remark β) : Prop :=
  (∃ newest node, newestList from_ w.state vmid reply = some newest ∧
    firstGuest newest vmid = some node ∧
    ending.world.sends =
      w.sends ++ fetches w.state vmid ++ [statusCall kind node vmid]) ∨
  (ending.world.sends = w.sends ++ fetches w.state vmid ∧
    ∃ message, ending.result = .error (.resourceNotFoundError message))

/-! ## What the code does -/

section Runs

variable {τ : Type} {E : Surroundings ClusterView (Except Exc Json)} {i : τ} {n : Nat}
  {w : World τ ClusterView ApiCall (Except Exc Json) Remark}

/-- What a lookup in a fresh list ends in. -/
def refetched (from_ : FromDict) (vmid : Int) (reply : Except Exc Json) :
    Except Exc (Option String) :=
  match fetched from_ reply with
  | .ok held => .ok (pveFindNodeInCache held vmid)
  | .error err =>
      if err = .cancelledError then .error err
      else .error (.resourceNotFoundError
        ("Failed to fetch resource map while tracking VMID " ++ toString vmid))

/-- To fetch again is to ask for the list once more. -/
theorem exec_refetch (from_ : FromDict) (vmid : Int) :
    ∃ w', (refetch from_ vmid).exec E i n w =
        ⟨refetched from_ vmid (E.reply n), n + 1, w'⟩ ∧
      w'.sends = w.sends ++ [resourcesCall] := by
  rcases exec_resources from_ i n w E with ⟨w', hrun, hsends, hstate⟩
  refine ⟨w', ?_, hsends⟩
  unfold refetch refetched
  rcases hfetched : fetched from_ (E.reply n) with err | held
  · rw [hfetched] at hrun
    rw [Co.exec_tryCatch_error (Co.exec_bind_error hrun _)]
    by_cases hcancelled : err = .cancelledError
    · simp only [untracked, hcancelled, if_true, Co.exec_throw]
    · simp only [untracked, hcancelled, if_false, Co.exec_throw]
  · rw [hfetched] at hrun
    refine Co.exec_tryCatch_ok ?_ _
    have hheld : w'.state.clusterResources = some held := by
      rw [hstate]
      exact adopt_clusterResources hfetched
    rw [Co.exec_bind_ok hrun, Co.exec_bind, exec_heldResources, hheld]
    rfl

/-- What locating a guest ends in. -/
def located (from_ : FromDict) (kind : GuestKind) (vmid : Int)
    (held : List ClusterResource) (reply : Except Exc Json) : Except Exc String :=
  match present (pveFindNodeInCache held vmid) with
  | some node => .ok node
  | none => do
      let found ← refetched from_ vmid reply
      match present found with
      | some node => return node
      | none => throw (.resourceNotFoundError (kind.missing vmid))

/-- Locating a guest sends nothing but a fetch, where the held list names no node for it. -/
theorem exec_locate (from_ : FromDict) (kind : GuestKind) (vmid : Int)
    {held : List ClusterResource} (hheld : w.state.clusterResources = some held) :
    ∃ n' w', (locate from_ kind vmid).exec E i n w =
        ⟨located from_ kind vmid held (E.reply n), n', w'⟩ ∧
      w'.sends = w.sends ++
        if present (pveFindNodeInCache held vmid) = none then [resourcesCall] else [] := by
  have hfirst : heldResources.exec E i n w = ⟨.ok held, n, w⟩ := by
    rw [exec_heldResources, hheld]
  unfold locate located
  rw [Co.exec_bind_ok hfirst]
  rcases hfound : present (pveFindNodeInCache held vmid) with _ | node
  · rcases exec_refetch (E := E) (i := i) (n := n) (w := w) from_ vmid with
      ⟨w', hrun, hsends⟩
    refine ⟨n + 1, w', ?_, hsends⟩
    simp only
    rcases hout : refetched from_ vmid (E.reply n) with err | found
    · rw [hout] at hrun
      exact Co.exec_bind_error hrun _
    · rw [hout] at hrun
      rw [Co.exec_bind_ok hrun]
      rcases hpresent : present found with _ | node
      · simp only [hpresent, bind, Except.bind]
        rfl
      · simp only [hpresent, bind, Except.bind]
        rfl
  · exact ⟨n, w, rfl, by simp⟩

/-- Without a list, the first thing locating a guest does raises. -/
theorem exec_locate_fresh (from_ : FromDict) (kind : GuestKind) (vmid : Int)
    (hfresh : w.state.clusterResources = none) :
    (locate from_ kind vmid).exec E i n w =
      ⟨.error (.attributeError "'ProxmoxVE' object has no attribute 'cluster_resources'"),
        n, w⟩ := by
  unfold locate
  exact Co.exec_bind_error (by rw [exec_heldResources, hfresh]) _

/-- Where locating the guest raises, so does asking for its status. -/
theorem exec_current_error {β : Type} (from_ : FromDict)
    (kind : GuestKind) (read : Dict → Except Exc β) {vmid : Int} {e : Exc} {n' : Nat}
    {w' : World τ ClusterView ApiCall (Except Exc Json) Remark}
    (hlocate : (locate from_ kind vmid).exec E i n w = ⟨.error e, n', w'⟩) :
    (current from_ kind read vmid).exec E i n w = ⟨.error e, n', w'⟩ := by
  rw [current]
  exact Co.exec_bind_error hlocate _

/-- Where the guest is located, its status is asked for, and nothing after that. -/
theorem exec_current_located {β : Type} (from_ : FromDict)
    (kind : GuestKind) (read : Dict → Except Exc β) {vmid : Int} {node : String} {n' : Nat}
    {w' : World τ ClusterView ApiCall (Except Exc Json) Remark}
    (hlocate : (locate from_ kind vmid).exec E i n w = ⟨.ok node, n', w'⟩) :
    ((current from_ kind read vmid).exec E i n w).world.sends =
      w'.sends ++ [statusCall kind node vmid] := by
  rcases exec_clientRequest i n' w' E "GET" (statusPath kind node vmid) [] with
    ⟨w'', hcall, hsends⟩
  rw [current, Co.exec_bind_ok hlocate]
  rcases hreply : E.reply n' with e | raw
  · rw [hreply] at hcall
    rw [Co.exec_bind_error hcall]
    exact hsends
  · rw [hreply] at hcall
    rw [Co.exec_bind_ok hcall]
    cases raw <;> exact hsends

end Runs

/-! ## When a guest is located -/

/-- A node that is present has a name. -/
theorem present_eq_some {found : Option String} {node : String} :
    present found = some node ↔ found = some node ∧ node ≠ "" := by
  cases found with
  | none => simp [present]
  | some name =>
      by_cases hname : name = ""
      · simp [present, hname, eq_comm]
      · simp only [present, hname, if_false, Option.some.injEq]
        constructor
        · rintro rfl
          exact ⟨rfl, hname⟩
        · exact And.left

section Located

variable {τ β : Type} {from_ : FromDict} {kind : GuestKind} {vmid : Int}
  {E : Surroundings ClusterView (Except Exc Json)} {i : τ} {n : Nat}
  {w : World τ ClusterView ApiCall (Except Exc Json) Remark} {held : List ClusterResource}
  {read : Dict → Except Exc β}

/-- A client that has never fetched the list raises before anything is sent. -/
theorem not_located_of_fresh (hfresh : w.state.clusterResources = none) :
    ¬ Located from_ kind vmid (E.reply n) w
      ((current from_ kind read vmid).exec E i n w) := by
  have hlacks : w.state.lacks vmid = true := by
    simp only [ClusterView.lacks, hfresh]
  rw [exec_current_error from_ kind read (exec_locate_fresh from_ kind vmid hfresh)]
  rintro (⟨newest, node, -, -, hsends⟩ | ⟨hsends, -⟩)
  · have hlength := congrArg List.length hsends
    simp [fetches, hlacks] at hlength
  · have hlength := congrArg List.length hsends
    simp [fetches, hlacks] at hlength

/-- A guest found in the held list under a name is asked for there. -/
theorem located_of_held (hheld : w.state.clusterResources = some held) {node : String}
    (hguest : firstGuest held vmid = some node) (hname : node ≠ "") :
    Located from_ kind vmid (E.reply n) w
      ((current from_ kind read vmid).exec E i n w) := by
  have hlacks : w.state.lacks vmid = false := by
    simp only [ClusterView.lacks, hheld, hguest]
    rfl
  have hpresent : present (pveFindNodeInCache held vmid) = some node := by
    rw [present_eq_some, pveFindNodeInCache_eq, hguest]
    exact ⟨rfl, hname⟩
  rcases exec_locate (E := E) (i := i) (n := n) from_ kind vmid hheld with
    ⟨n', w', hrun, hsends⟩
  rw [show located from_ kind vmid held (E.reply n) = .ok node by
    simp only [located, hpresent]] at hrun
  rw [hpresent, if_neg (by simp), List.append_nil] at hsends
  refine .inl ⟨held, node, ?_, hguest, ?_⟩
  · simp only [newestList, hlacks, Bool.false_eq_true, if_false, hheld]
  · rw [exec_current_located from_ kind read hrun, hsends, fetches, hlacks,
      if_neg (by simp), List.append_nil]

/-- Where the held list names no node for the guest, the fetch is sent first; a run that
raises in locating it sends nothing else, and any other asks the node found. -/
theorem exec_current_absent (read : Dict → Except Exc β)
    (hheld : w.state.clusterResources = some held)
    (hpresent : present (pveFindNodeInCache held vmid) = none) :
    (∀ e, located from_ kind vmid held (E.reply n) = .error e →
      ((current from_ kind read vmid).exec E i n w).result = .error e ∧
        ((current from_ kind read vmid).exec E i n w).world.sends =
          w.sends ++ [resourcesCall]) ∧
      ∀ name, located from_ kind vmid held (E.reply n) = .ok name →
        ((current from_ kind read vmid).exec E i n w).world.sends =
          w.sends ++ [resourcesCall] ++ [statusCall kind name vmid] := by
  rcases exec_locate (E := E) (i := i) (n := n) from_ kind vmid hheld with
    ⟨n', w', hrun, hsends⟩
  rw [if_pos hpresent] at hsends
  constructor
  · intro e he
    rw [he] at hrun
    rw [exec_current_error from_ kind read hrun]
    exact ⟨rfl, hsends⟩
  · intro name hname
    rw [hname] at hrun
    rw [exec_current_located from_ kind read hrun, hsends]

/-- A guest of the held list without a name is fetched for all the same. -/
theorem not_located_of_nameless (hheld : w.state.clusterResources = some held) {node : String}
    (hguest : firstGuest held vmid = some node) (hname : node = "") :
    ¬ Located from_ kind vmid (E.reply n) w
      ((current from_ kind read vmid).exec E i n w) := by
  have hlacks : w.state.lacks vmid = false := by
    simp only [ClusterView.lacks, hheld, hguest]
    rfl
  have hpresent : present (pveFindNodeInCache held vmid) = none := by
    rw [pveFindNodeInCache_eq, hguest]
    simp [present, hname]
  rcases exec_current_absent (E := E) (i := i) (n := n) read hheld hpresent with
    ⟨hraised, hasked⟩
  -- the fetch is the first call of the run, and no part of what the claim of the run lists
  have hfirst : ∃ rest, ((current from_ kind read vmid).exec E i n w).world.sends =
      w.sends ++ resourcesCall :: rest := by
    rcases hlocated : located from_ kind vmid held (E.reply n) with e | name
    · exact ⟨[], (hraised e hlocated).2⟩
    · refine ⟨[statusCall kind name vmid], ?_⟩
      rw [hasked name hlocated, List.append_assoc]
      rfl
  rcases hfirst with ⟨rest, hfirst⟩
  rintro (⟨newest, node', -, -, hlisted⟩ | ⟨hlisted, -⟩)
  · rw [hfirst, fetches, hlacks, if_neg (by simp), List.append_nil, List.append_cancel_left_eq,
      List.cons.injEq] at hlisted
    exact statusCall_ne kind _ vmid hlisted.1.symm
  · rw [hfirst, fetches, hlacks, if_neg (by simp), List.append_cancel_left_eq] at hlisted
    contradiction

/-- What is left of locating a guest that is found in the held list under no name. -/
theorem located_of_absent (from_ : FromDict) (kind : GuestKind) (vmid : Int)
    (hpresent : present (pveFindNodeInCache held vmid) = none) (reply : Except Exc Json) :
    located from_ kind vmid held reply =
      match fetched from_ reply with
      | .ok fresh =>
          match present (pveFindNodeInCache fresh vmid) with
          | some node => .ok node
          | none => .error (.resourceNotFoundError (kind.missing vmid))
      | .error e =>
          if e = .cancelledError then .error e
          else .error (.resourceNotFoundError
            ("Failed to fetch resource map while tracking VMID " ++ toString vmid)) := by
  simp only [located, hpresent, refetched]
  rcases fetched from_ reply with e | fresh
  · by_cases hcancelled : e = .cancelledError
    · simp only [hcancelled, if_true]
      rfl
    · simp only [hcancelled, if_false]
      rfl
  · simp only [bind, Except.bind]
    cases present (pveFindNodeInCache fresh vmid) <;> rfl

section Lacking

variable (hheld : w.state.clusterResources = some held) (hguest : firstGuest held vmid = none)

include hheld hguest

/-- Without the guest in it the list is fetched. -/
theorem fetches_of_lacking : fetches w.state vmid = [resourcesCall] := by
  have hlacks : w.state.lacks vmid = true := by
    simp only [ClusterView.lacks, hheld, hguest]
    rfl
  rw [fetches, hlacks, if_pos rfl]

/-- What is fetched is then the newest list. -/
theorem newestList_of_lacking (raw : Json) :
    newestList from_ w.state vmid (.ok raw) = some (deserializeResourceList from_ raw) := by
  have hlacks : w.state.lacks vmid = true := by
    simp only [ClusterView.lacks, hheld, hguest]
    rfl
  simp only [newestList, hlacks, if_true]

omit hheld in
/-- The guest is not found in the list that was held. -/
theorem absent_of_lacking :
    present (pveFindNodeInCache held vmid) = none := by
  rw [pveFindNodeInCache_eq, hguest]
  rfl

/-- A fetch that is cancelled ends the run with the cancellation. -/
theorem not_located_of_cancelled (hreply : E.reply n = .error .cancelledError) :
    ¬ Located from_ kind vmid (E.reply n) w
      ((current from_ kind read vmid).exec E i n w) := by
  have hpresent := absent_of_lacking hguest
  have hlocated : located from_ kind vmid held (E.reply n) = .error .cancelledError := by
    rw [located_of_absent from_ kind vmid hpresent, hreply]
    rfl
  rcases (exec_current_absent (i := i) read hheld hpresent).1 _ hlocated with
    ⟨hresult, hsends⟩
  rintro (⟨newest, node, -, -, hlisted⟩ | ⟨-, message, hmessage⟩)
  · rw [hsends, fetches_of_lacking hheld hguest] at hlisted
    have hlength := congrArg List.length hlisted
    simp at hlength
  · rw [hresult] at hmessage
    cases hmessage

/-- A fetch that fails otherwise, and one that lists no such guest, end the run with the
guest not found. -/
theorem located_of_notFound {message : String}
    (hlocated : located from_ kind vmid held (E.reply n) =
      .error (.resourceNotFoundError message)) :
    Located from_ kind vmid (E.reply n) w
      ((current from_ kind read vmid).exec E i n w) := by
  rcases (exec_current_absent (i := i) read hheld (absent_of_lacking hguest)).1 _ hlocated with
    ⟨hresult, hsends⟩
  rw [← fetches_of_lacking hheld hguest] at hsends
  exact .inr ⟨hsends, message, hresult⟩

/-- A fetch that lists the guest leads to its node. -/
theorem located_of_fresh {fresh : List ClusterResource} {name : String}
    (hfetched : fetched from_ (E.reply n) = .ok fresh)
    (hfound : present (pveFindNodeInCache fresh vmid) = some name) :
    Located from_ kind vmid (E.reply n) w
      ((current from_ kind read vmid).exec E i n w) := by
  have hpresent := absent_of_lacking hguest
  have hlocated : located from_ kind vmid held (E.reply n) = .ok name := by
    rw [located_of_absent from_ kind vmid hpresent, hfetched]
    simp only [hfound]
  have hsends := (exec_current_absent (i := i) read hheld hpresent).2 name hlocated
  rw [← fetches_of_lacking hheld hguest] at hsends
  rw [present_eq_some, pveFindNodeInCache_eq] at hfound
  refine .inl ⟨fresh, name, ?_, hfound.1, hsends⟩
  rcases hreply : E.reply n with e | raw
  · rw [hreply] at hfetched
    contradiction
  · rw [hreply] at hfetched
    cases hfetched
    exact newestList_of_lacking hheld hguest raw

/-- A guest that the held list lacks is located unless the fetch is cancelled. -/
theorem located_of_lacking_iff :
    Located from_ kind vmid (E.reply n) w
        ((current from_ kind read vmid).exec E i n w) ↔
      E.reply n ≠ .error .cancelledError := by
  refine ⟨fun h hreply => not_located_of_cancelled hheld hguest hreply h, fun hreply => ?_⟩
  have hlocated := located_of_absent from_ kind vmid (absent_of_lacking hguest)
    (E.reply n)
  rcases hfetched : fetched from_ (E.reply n) with e | fresh
  · have hne : e ≠ .cancelledError := by
      rcases hanswer : E.reply n with e' | raw
      · rw [hanswer] at hfetched hreply
        cases hfetched
        exact fun heq => hreply (congrArg Except.error heq)
      · rw [hanswer] at hfetched
        contradiction
    rw [hfetched] at hlocated
    simp only [if_neg hne] at hlocated
    exact located_of_notFound hheld hguest hlocated
  · rcases hfound : present (pveFindNodeInCache fresh vmid) with _ | name
    · rw [hfetched] at hlocated
      simp only [hfound] at hlocated
      exact located_of_notFound hheld hguest hlocated
    · exact located_of_fresh hheld hguest hfetched hfound

end Lacking

/-- A guest is located exactly if the client holds a list and either the first guest with the
id has a name for its node there, or there is none and the fetch is not cancelled. -/
theorem current_located_iff (from_ : FromDict) (kind : GuestKind)
    (read : Dict → Except Exc β) (vmid : Int) (E : Surroundings ClusterView (Except Exc Json))
    (i : τ) (n : Nat) (w : World τ ClusterView ApiCall (Except Exc Json) Remark) :
    Located from_ kind vmid (E.reply n) w
        ((current from_ kind read vmid).exec E i n w) ↔
      ∃ held, w.state.clusterResources = some held ∧
        match firstGuest held vmid with
        | some node => node ≠ ""
        | none => E.reply n ≠ .error .cancelledError := by
  cases hheld : w.state.clusterResources with
  | none =>
      refine iff_of_false (not_located_of_fresh hheld) ?_
      rintro ⟨held, hsome, -⟩
      contradiction
  | some held =>
      simp only [Option.some.injEq, exists_eq_left']
      cases hguest : firstGuest held vmid with
      | some node =>
          by_cases hname : node = ""
          · exact iff_of_false (not_located_of_nameless hheld hguest hname) (not_not_intro hname)
          · exact iff_of_true (located_of_held hheld hguest hname) hname
      | none => exact located_of_lacking_iff hheld hguest

end Located

/-- What the API lists of a virtual machine that runs. -/
def guestItem : Dict :=
  [("id", .str "qemu/100"), ("type", .str "qemu"), ("vmid", .int 100), ("name", .str "web"),
    ("node", .str "pve1"), ("status", .str "running"), ("template", .int 0)]

/-- A client as constructed, asked for the status of a virtual machine that the cluster
lists. -/
theorem current_located_counterexample :
    ¬ Located (readItems textOf) qemuKind 100 (.ok (.arr [.obj guestItem]))
      (⟨ClusterView.init, []⟩ : World Unit ClusterView ApiCall (Except Exc Json) Remark)
      ((qemuCurrent (readItems textOf) (fun fields => .ok fields) 100).exec
        ⟨fun _ view => view, fun _ => .ok (.arr [.obj guestItem])⟩ () 0
        ⟨ClusterView.init, []⟩) := by
  rintro (⟨newest, node, -, -, hsends⟩ | ⟨hsends, -⟩)
  · contradiction
  · contradiction

end AioProxmox
