import AioProxmox.Cluster.Pollers
import AioProxmox.Coroutine.Refinement
import AioProxmox.System.Methods

/-!
# System - the methods share one view

The endpoint methods keep the resource list and its index on the client, for all of them.
However many of them run, each call of theirs with its renewals, searches and repetitions,
they do what methods do whose calls are answered at once; and the list and the index are what
the answers to the fetches leave that are adopted one after the other, in the order in which
they came.

Main results:

- Definition {lit}`adoptedAlong`: what the answers of a history leave.
- Theorem {lit}`methods_serialize`: any pool of methods over the client refines the pool whose
  calls are answered at once, and shares the view that the answers leave.
-/

namespace AioProxmox

open Coroutine

variable {τ Record : Type} {from_ : FromDict}
  {fromDict : RecordClass → Json → Except Exc Record} {text repr : Json → String}

/-- The view that the answers to the fetches leave, adopted in the order in which they came. -/
def adoptedAlong (from_ : FromDict) :
    List (Event τ ApiCall (Except Exc Json) Remark) → ClusterView
  | [] => ClusterView.init
  | .got _ q r :: before =>
      if q.path = resourcesCall.path then (adoptedAlong from_ before).adopt from_ r
      else adoptedAlong from_ before
  | _ :: before => adoptedAlong from_ before

/-- The view is what the answers so far have left. -/
def Serialized (from_ : FromDict)
    (w : World τ ClusterView ApiCall (Except Exc Json) Remark) : Prop :=
  w.state = adoptedAlong from_ w.history

/-! ## The lock is the client's -/

/-- Locating a guest leaves the lock to the client. -/
theorem locate_lockless (kind : GuestKind) (vmid : Int) :
    (locate from_ kind vmid).Lockless := by
  have hheld : heldResources.Lockless := by
    refine Co.Lockless.bind Co.Lockless.state fun view => ?_
    cases view.clusterResources <;> exact trivial
  refine hheld.bind fun held => ?_
  split
  · exact trivial
  · refine Co.Lockless.bind ?_ fun found => ?_
    · refine Co.Lockless.tryCatch ?_ fun err => ?_
      · exact (resources_lockless from_).bind fun _ => hheld.bind fun _ => trivial
      · unfold untracked
        split_ifs <;> exact trivial
    · split <;> exact trivial

/-- The status of a guest leaves the lock to the client. -/
theorem current_lockless {β : Type} (kind : GuestKind) (read : Dict → Except Exc β) (vmid : Int) :
    (current from_ kind read vmid).Lockless := by
  refine (locate_lockless kind vmid).bind fun node => ?_
  refine (Co.Lockless.await _).bind fun raw => ?_
  cases raw <;> exact trivial

/-- So does every method. -/
theorem EndpointCall.run_lockless (e : EndpointCall) :
    (e.run from_ fromDict text repr).Lockless := by
  cases e with
  | command c =>
      rw [EndpointCall.run, Command.run_eq]
      refine Co.Lockless.bind ?_ fun _ => trivial
      exact (Co.Lockless.ofExcept _).bind fun _ => (Co.Lockless.await _).bind fun _ => trivial
  | reading r =>
      rw [EndpointCall.run, Reading.run_eq]
      exact fun _ => trivial
  | qemuCurrent vmid => exact current_lockless qemuKind _ vmid
  | lxcCurrent vmid => exact current_lockless lxcKind _ vmid
  | resources => exact (resources_lockless from_).bind fun _ => trivial

/-! ## What a method does to the view -/

section Serialized

variable {i : τ} {w : World τ ClusterView ApiCall (Except Exc Json) Remark}

/-- An event that keeps the view serialized may be logged. -/
theorem Serialized.logs {K : World τ ClusterView ApiCall (Except Exc Json) Remark → Prop} {h : Bool}
    {e : Event τ ApiCall (Except Exc Json) Remark} (hK : K (w.log e)) :
    (worldDiscipline (Serialized from_)).Logs i h w e K :=
  fun _ => ⟨⟨fun _ _ => (World.Grows.refl w).log e, fun _ _ => trivial⟩, hK⟩

/-- Returning and raising leave the view alone. -/
theorem ofExcept_serialized {α : Type} (r : Except Exc α) :
    Co.Meets (worldDiscipline (Serialized from_)) i false Co.Anyhow
      (Co.ofExcept r : Api α) :=
  .ofExcept fun _ _ => trivial

/-- A call that fetches nothing. -/
theorem call_serialized {α : Type} {q : ApiCall} {k : Except Exc Json → Api α}
    (hq : q.path ≠ resourcesCall.path)
    (hk : ∀ out, Co.Meets (worldDiscipline (Serialized from_)) i false Co.Anyhow (k out)) :
    Co.Meets (worldDiscipline (Serialized from_)) i false Co.Anyhow (.call q k) := by
  intro w hw
  refine Serialized.logs ⟨hw, fun w' r _ hw' => Serialized.logs (hk r _ ?_)⟩
  change w'.state = adoptedAlong from_ (.got i q r :: w'.history)
  rw [adoptedAlong, if_neg hq]
  exact hw'

/-- A call for something else keeps the view serialized. -/
theorem await_serialized {q : ApiCall} (hq : q.path ≠ resourcesCall.path) :
    Co.Meets (worldDiscipline (Serialized from_)) i false Co.Anyhow
      (Co.await q : Api Json) :=
  call_serialized hq fun out => ofExcept_serialized out

/-- Reading what is held keeps the view serialized. -/
theorem heldResources_serialized :
    Co.Meets (worldDiscipline (Serialized from_)) i false Co.Anyhow heldResources := by
  intro w hw
  simp only [heldResources, Co.wp_bind, Co.wp_state]
  cases w.state.clusterResources with
  | some held => exact ⟨rfl, hw, trivial⟩
  | none => exact ⟨rfl, hw, trivial⟩

/-- Adopting an answer, all of it at once. -/
theorem adoptList_wp (raw : Json) {Q : Post τ ClusterView ApiCall (Except Exc Json) Exc Remark
      (List ClusterResource)}
    (hQ : ∀ r, Q false r { w with state := w.state.adopt from_ (.ok raw) }) :
    (adoptList from_ raw).wp (worldDiscipline (Serialized from_)) i false Q w := by
  have hallows : ∀ (w : World τ ClusterView ApiCall (Except Exc Json) Remark) state,
      (worldDiscipline (Serialized from_)).Allows i false w { w with state := state } :=
    fun w state => ⟨fun _ _ => ⟨[], rfl⟩, fun _ _ => trivial⟩
  simp only [adoptList, heldResources, Co.wp_bind, Co.wp_modify, Co.wp_state, Co.wp_pure]
  exact ⟨hallows _ _, hallows _ _, hQ (.ok (deserializeResourceList from_ raw))⟩

/-- A fetch adopts its answer as it comes. -/
theorem resources_serialized :
    Co.Meets (worldDiscipline (Serialized from_)) i false Co.Anyhow
      (resources from_) := by
  intro w hw
  simp only [resources, clientRequest, Co.wp_bind, Co.wp_await]
  refine Serialized.logs ⟨hw, fun w' r _ hw' => Serialized.logs ?_⟩
  have hadopted : adoptedAlong from_ (.got i resourcesCall r :: w'.history) =
      w'.state.adopt from_ r := by
    rw [adoptedAlong, if_pos rfl, ← (hw' : w'.state = _)]
  cases r with
  | error e => exact ⟨rfl, hadopted.symm, trivial⟩
  | ok raw => exact adoptList_wp raw fun r => ⟨rfl, hadopted.symm, trivial⟩

/-- Looking for a guest keeps the view serialized. -/
theorem locate_serialized (kind : GuestKind) (vmid : Int) :
    Co.Meets (worldDiscipline (Serialized from_)) i false Co.Anyhow
      (locate from_ kind vmid) := by
  refine heldResources_serialized.andThen fun held => ?_
  split
  · exact ofExcept_serialized (.ok _)
  · refine Co.Meets.andThen (R := Co.Anyhow) ?_ fun found => ?_
    · refine Co.Meets.orElse (R := Co.Anyhow) ?_ fun err => ?_
      · exact resources_serialized.andThen fun _ => heldResources_serialized.andThen fun _ =>
          ofExcept_serialized (.ok _)
      · unfold untracked
        split_ifs
        · exact ofExcept_serialized (.error _)
        · exact ofExcept_serialized (.error _)
    · split
      · exact ofExcept_serialized (.ok _)
      · exact ofExcept_serialized (.error _)

/-- The path of a status is not that of the list. -/
theorem statusPath_ne (kind : GuestKind) (node : String) (vmid : Int) :
    statusPath kind node vmid ≠ resourcesCall.path := by
  intro hpath
  have hchars := congrArg String.toList hpath
  simp [statusPath, resourcesCall, String.toList_append] at hchars

/-- The status of a guest keeps the view serialized. -/
theorem current_serialized {β : Type} (kind : GuestKind) (read : Dict → Except Exc β)
    (vmid : Int) :
    Co.Meets (worldDiscipline (Serialized from_)) i false Co.Anyhow
      (current from_ kind read vmid) := by
  refine (locate_serialized kind vmid).andThen fun node => ?_
  refine (await_serialized (statusPath_ne kind node vmid)).andThen fun raw => ?_
  cases raw with
  | obj fields => exact ofExcept_serialized (read fields)
  | _ => exact ofExcept_serialized (.error _)

/-- Nothing but a fetch asks for the list. -/
theorem Command.path_ne (c : Command) : c.path ≠ resourcesCall.path := by
  intro hpath
  have hchars := congrArg String.toList hpath
  cases c <;> simp [Command.path, resourcesCall, String.toList_append] at hchars

/-- A reading method does not ask for the list. -/
theorem Reading.path_ne (r : Reading) : r.path ≠ resourcesCall.path := by
  intro hpath
  have hchars := congrArg String.toList hpath
  cases r <;>
    simp [Reading.path, nodePath, guestPath, resourcesCall, String.toList_append] at hchars

/-- A method that runs among others leaves the view as the answers do. -/
theorem EndpointCall.run_serialized (e : EndpointCall) :
    Co.Meets (worldDiscipline (Serialized from_)) i false Co.Anyhow
      (e.run from_ fromDict text repr) := by
  cases e with
  | command c =>
      rw [EndpointCall.run, Command.run_eq]
      refine Co.Meets.andThen (R := Co.Anyhow) ?_ fun _ => ofExcept_serialized (.ok _)
      exact (ofExcept_serialized _).andThen fun payload =>
        (await_serialized c.path_ne).andThen fun _ => ofExcept_serialized (.ok _)
  | reading r =>
      rw [EndpointCall.run, Reading.run_eq]
      exact call_serialized r.path_ne fun out => ofExcept_serialized _
  | qemuCurrent vmid => exact current_serialized qemuKind _ vmid
  | lxcCurrent vmid => exact current_serialized lxcKind _ vmid
  | resources => exact resources_serialized.andThen fun _ => ofExcept_serialized (.ok _)

end Serialized

/-! ## Pools of methods -/

/-- The pool of the methods whose calls are answered at once. -/
def methodPool (from_ : FromDict) (fromDict : RecordClass → Json → Except Exc Record)
    (text repr : Json → String) (calls : τ → EndpointCall) :
    Config τ ClusterView ApiCall (Except Exc Json) Exc Remark (Report Record) :=
  Config.initial ClusterView.init fun i => (calls i).run from_ fromDict text repr

/-- The pool of the methods over the client. -/
def servedMethods (from_ : FromDict) (fromDict : RecordClass → Json → Except Exc Record)
    (text repr : Json → String) (calls : τ → EndpointCall) (m : Machine) :
    Config τ (ClusterView × Machine) Exchange Outcome Exc Remark (Report Record) :=
  Config.initial (ClusterView.init, m) fun i =>
    ((calls i).run from_ fromDict text repr).servedBy ApiCall.serve

variable [DecidableEq τ]

/-- Where the calls are answered at once, the view is what the answers leave. -/
theorem methodPool_serialized {calls : τ → EndpointCall}
    {a : Config τ ClusterView ApiCall (Except Exc Json) Exc Remark (Report Record)}
    (hrun : Config.Reaches Config.SchedulerOnly
      (methodPool from_ fromDict text repr calls) a) : Serialized from_ a.world :=
  Config.Kept.reaches (D := worldDiscipline (Serialized from_))
    ⟨fun _ => trivial, rfl, trivial, fun i => (calls i).run_serialized⟩
    (fun _ f hf => absurd rfl (hf f)) hrun

/-- Whatever any number of methods over the client reach, with their renewals, searches and
repetitions interleaved in any way, the same methods reach with their calls answered at once:
with the same results and the same view.  There each method calls what it may call and ends as
its answers tell; and the view is what the answers to the fetches leave, adopted in the order in
which they came. -/
theorem methods_serialize {calls : τ → EndpointCall} {m : Machine}
    {d : Config τ (ClusterView × Machine) Exchange Outcome Exc Remark (Report Record)}
    (hrun : Config.Reaches Config.FirstKept
      (servedMethods from_ fromDict text repr calls m) d) :
    ∃ a, Config.Reaches Config.SchedulerOnly (methodPool from_ fromDict text repr calls) a ∧
      (∀ i, a.result i = d.result i) ∧
      (∀ i, Along (Asked (MayCall repr (calls i)) i) a.world.history ∧
        ∀ r, d.result i = some r →
          MethodEnds from_ fromDict text repr r (calls i) (conversation i a.world.history)) ∧
      d.world.state.1 = adoptedAlong from_ a.world.history := by
  obtain ⟨a, hreach, hstate, hresult⟩ := hrun.servedBy fun i => (calls i).run_lockless
  refine ⟨a, hreach, hresult, fun i => ?_, hstate.symm.trans (methodPool_serialized hreach)⟩
  have htalks : Along (Asked (MayCall repr (calls i)) i) a.world.history ∧
      ∀ r, a.result i = some r →
        MethodEnds from_ fromDict text repr r (calls i) (conversation i a.world.history) := by
    refine Config.Reaches.talks (S := fun _ => True) ?_ (fun _ _ _ => trivial) hreach
    exact (calls i).run_talks
  exact ⟨htalks.1, fun r hr => htalks.2 r ((hresult i).trans hr)⟩

/-- Two tasks on one view: one fetches the list, one reads the disks of a node. -/
def fetchAndRead : Fin 2 → EndpointCall :=
  ![.resources, .reading (.disksAll "pve")]

/-- Both are asked for; the host of the reader is lost while the list is adopted. -/
theorem methods_serialize_witness :
    ∃ d : Config (Fin 2) (ClusterView × Machine) Exchange Outcome Exc Remark (Report Unit),
      d.result 0 = some (.ok (.resources [])) ∧
        ∃ a, Config.Reaches Config.SchedulerOnly
            (methodPool (readItems strOnly) readsNothing strOnly strOnly fetchAndRead) a ∧
          (∀ i, a.result i = d.result i) ∧
          (∀ i, Along (Asked (MayCall strOnly (fetchAndRead i)) i) a.world.history ∧
            ∀ r, d.result i = some r →
              MethodEnds (readItems strOnly) readsNothing strOnly strOnly r (fetchAndRead i)
                (conversation i a.world.history)) ∧
          d.world.state.1 = adoptedAlong (readItems strOnly) a.world.history := by
  obtain ⟨d, hrun, hresult⟩ : ∃ d, Config.run
      (servedMethods (readItems strOnly) readsNothing strOnly strOnly fetchAndRead
        ⟨.loggedIn ["192.0.2.1", "192.0.2.2"], 0⟩)
        [.start 0, .start 1, .resume 1 (replyOf false), .resume 0 (replyOf true)] = some d ∧
      d.result 0 = some (.ok (.resources [])) :=
    ⟨_, by and_intros <;> with_unfolding_all rfl⟩
  refine ⟨d, hresult, methods_serialize (Config.reaches_of_run (fun _ a ha => ?_) hrun)⟩
  rintro f rfl
  simp at ha

end AioProxmox
