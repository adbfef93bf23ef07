import AioProxmox.Client.KnownHosts
import AioProxmox.Client.Runs

/-!
# Client - the host list over a client's life

The code's list and index represent {lit}`KnownHosts`: {lit}`learn_hosts` is
{lit}`learn` or {lit}`renew`, and a failover that nobody disturbs is a
{lit}`moveTo`, so whatever a client has been through its list starts with the
configured host and names no host twice.

Main results:

- Theorem {lit}`learnHosts_eq`: {lit}`learn_hosts` refines the abstract
  operation.
- Theorem {lit}`failover_coherent`: an undisturbed failover leaves index and
  URLs agreeing.
- Theorem {lit}`hostList_invariant`: the host list after any history, and what
  one more {lit}`learn_hosts` makes of it.
-/

namespace AioProxmox

open Coroutine Collections

/-! ## Agreement of index and URLs -/

namespace ProxmoxVE

/-- The index is in range, and the URLs are those of the host it names. -/
structure Coherent (c : ProxmoxVE) : Prop where
  host : ∃ host, c.hosts[c.hostIndex]? = some host ∧ c.baseUrl = apiUrl host c.port
  auth : c.auth.hasRelogin = true → c.auth.baseUrl = c.baseUrl

/-- The client after {lit}`_use_host(index)`, the list having {lit}`host` there. -/
def placedAt (c : ProxmoxVE) (index : Nat) (host : String) : ProxmoxVE :=
  { c with hostIndex := index }.pointAt host

@[simp]
theorem placedAt_hosts (c : ProxmoxVE) (index : Nat) (host : String) :
    (c.placedAt index host).hosts = c.hosts :=
  rfl

@[simp]
theorem placedAt_hostIndex (c : ProxmoxVE) (index : Nat) (host : String) :
    (c.placedAt index host).hostIndex = index :=
  rfl

@[simp]
theorem placedAt_port (c : ProxmoxVE) (index : Nat) (host : String) :
    (c.placedAt index host).port = c.port :=
  rfl

@[simp]
theorem placedAt_baseUrl (c : ProxmoxVE) (index : Nat) (host : String) :
    (c.placedAt index host).baseUrl = apiUrl host c.port :=
  rfl

@[simp]
theorem placedAt_auth (c : ProxmoxVE) (index : Nat) (host : String) :
    (c.placedAt index host).auth = c.auth.setBaseUrl (apiUrl host c.port) :=
  rfl

/-- Using a host of the list makes index and URLs agree. -/
theorem placedAt_coherent {c : ProxmoxVE} {index : Nat} {host : String}
    (h : c.hosts[index]? = some host) : (c.placedAt index host).Coherent where
  host := ⟨host, h, rfl⟩
  auth _ := Auth.baseUrl_setBaseUrl _ _

/-- There is a host at an index exactly if the list has one there. -/
theorem hostAt_eq_ok_iff {c : ProxmoxVE} {index : Nat} {host : String} :
    c.hostAt index = .ok host ↔ c.hosts[index]? = some host := by
  unfold hostAt
  cases c.hosts[index]? <;> simp

/-- The host in use is the one at the index. -/
theorem host_eq_ok_iff {c : ProxmoxVE} {host : String} :
    c.host = .ok host ↔ c.hosts[c.hostIndex]? = some host :=
  hostAt_eq_ok_iff

/-- The index is in range. -/
def InRange (c : ProxmoxVE) : Prop :=
  c.hostIndex < c.hosts.length

/-- With the index in range there is a host in use. -/
theorem InRange.host {c : ProxmoxVE} (h : c.InRange) : ∃ host, c.host = .ok host := by
  have hlt : c.hostIndex < c.hosts.length := h
  exact ⟨c.hosts[c.hostIndex], host_eq_ok_iff.mpr (List.getElem?_eq_getElem hlt)⟩

/-- A coherent client has its index in range. -/
theorem Coherent.inRange {c : ProxmoxVE} (h : c.Coherent) : c.InRange := by
  rcases h.host with ⟨host, hhost, -⟩
  exact (List.getElem?_eq_some_iff.mp hhost).1

end ProxmoxVE

/-- The machine after {lit}`_use_host(index)`. -/
def Machine.placedAt (m : Machine) (index : Nat) (host : String) : Machine :=
  { m with client := m.client.placedAt index host }

@[simp]
theorem Machine.placedAt_client (m : Machine) (index : Nat) (host : String) :
    (m.placedAt index host).client = m.client.placedAt index host :=
  rfl

section Exec

variable {τ : Type} {E : Surroundings Machine Outcome} {i : τ}

/-- {lit}`_use_host` with an index in range. -/
theorem exec_useHost {n : Nat} {w : World τ Machine Exchange Outcome Remark} {index : Nat}
    {host : String} (h : w.state.client.hosts[index]? = some host) :
    (useHost index).exec E i n w =
      ⟨.ok (), n, { w with state := w.state.placedAt index host }⟩ := by
  have hat : ({ w.state.client with hostIndex := index } : ProxmoxVE).hostAt index =
      .ok host :=
    ProxmoxVE.hostAt_eq_ok_iff.mpr h
  simp [useHost, hat, Machine.placedAt, ProxmoxVE.placedAt]

/-- What follows a candidate's answer: two reads. -/
theorem found_keeps {R : Machine → Machine → Prop} [Std.Refl R] [IsTrans Machine R]
    (start : Nat) :
    Keeps E i R (do
      let client ← self
      let _ ← Co.ofExcept (client.hostAt start)
      let _ ← currentHost
      return true : Prog Bool) :=
  self_keeps.bind fun _ => (Keeps.ofExcept _).bind fun _ =>
    currentHost_keeps.bind fun _ => Keeps.pure _

/-- The walk ends with index and URLs agreeing, wherever it stops. -/
theorem walk_coherent (hE : Quiet E) {start : Nat} {first : String} (offsets : List Nat)
    (n : Nat) (w : World τ Machine Exchange Outcome Remark)
    (hstart : w.state.client.hosts[start]? = some first) :
    ((walk start offsets).exec E i n w).world.state.client.Coherent := by
  induction offsets generalizing n w with
  | nil =>
      rw [walk, Co.exec_bind, exec_useHost hstart]
      exact ProxmoxVE.placedAt_coherent hstart
  | cons offset rest ih =>
      obtain ⟨host, hhost⟩ : ∃ host, w.state.client.hosts[(start + offset) %
          w.state.client.hosts.length]? = some host := by
        have hlt : start < w.state.client.hosts.length :=
          (List.getElem?_eq_some_iff.mp hstart).1
        exact ⟨_, List.getElem?_eq_getElem (Nat.mod_lt _ (Nat.zero_lt_of_lt hlt))⟩
      rw [walk, Co.exec_bind, exec_self]
      simp only
      rw [Co.exec_bind, exec_useHost hhost]
      simp only
      have hplaced := ProxmoxVE.placedAt_coherent hhost
      rw [Co.exec_bind]
      have hkeep := answers_keeps (i := i) hE true n { w with
        state := w.state.placedAt ((start + offset) % w.state.client.hosts.length) host }
      rcases hprobe : (answers true).exec E i n { w with
        state := w.state.placedAt ((start + offset) % w.state.client.hosts.length) host }
        with ⟨e | there, n', w'⟩
      · rw [hprobe] at hkeep
        exact hkeep ▸ hplaced
      · rw [hprobe] at hkeep
        have hclient : w'.state.client = w.state.client.placedAt
            ((start + offset) % w.state.client.hosts.length) host := hkeep
        cases there with
        | false =>
            refine ih n' w' ?_
            rw [hclient]
            exact hstart
        | true =>
            have hlast := found_keeps (E := E) (i := i) (R := Unchanged Machine.client) start n' w'
            exact (hlast.trans hkeep) ▸ hplaced

/-- Under the lock a failover leaves index and URLs agreeing: nothing changes up to the walk,
which ends so. -/
theorem switchHost_coherent (hE : Quiet E) (fromHost : Option String) (verifyCurrent : Bool)
    (n : Nat) (w : World τ Machine Exchange Outcome Remark)
    (hw : w.state.client.Coherent) :
    ((switchHost fromHost verifyCurrent).exec E i n w).world.state.client.Coherent := by
  obtain ⟨first, hfirst, -⟩ := hw.host
  have hreturn : ∀ b : Bool, Keeps E i (Unchanged Machine.client) (do
      let _ ← currentHost
      return b : Prog Bool) :=
    fun b => currentHost_keeps.bind fun _ => Keeps.pure _
  rw [switchHost, Co.exec_bind, exec_self]
  simp only
  have hmoved : Keeps E i (Unchanged Machine.client) (movedFrom fromHost) :=
    movedFrom_keeps fromHost
  have hkeep := hmoved n w
  rw [Co.exec_bind]
  rcases hrun : (movedFrom fromHost).exec E i n w with ⟨e | moved, n', w'⟩
  · rw [hrun] at hkeep
    exact hkeep ▸ hw
  · rw [hrun] at hkeep
    cases moved with
    | true => exact ((hreturn true n' w').trans hkeep) ▸ hw
    | false =>
        simp only [Bool.false_eq_true, if_false]
        have hkeep' := stillAnswers_keeps (i := i) (answers_keeps hE false) verifyCurrent n' w'
        rw [Co.exec_bind]
        rcases hrun' : (stillAnswers verifyCurrent).exec E i n' w' with ⟨e | there, n'', w''⟩
        · rw [hrun'] at hkeep'
          exact (hkeep'.trans hkeep) ▸ hw
        · rw [hrun'] at hkeep'
          have hsame : w''.state.client = w.state.client := hkeep'.trans hkeep
          cases there with
          | true => exact ((hreturn false n'' w'').trans hsame) ▸ hw
          | false =>
              have hstart : w''.state.client.hosts[w.state.client.hostIndex]? = some first := by
                rw [hsame]
                exact hfirst
              exact walk_coherent hE _ n'' w'' hstart

/-- An undisturbed failover leaves index and URLs agreeing. -/
theorem failover_coherent (hE : Quiet E) (fromHost : Option String) (verifyCurrent : Bool)
    (n : Nat) (w : World τ Machine Exchange Outcome Remark)
    (hw : w.state.client.Coherent) :
    ((failover fromHost verifyCurrent).exec E i n w).world.state.client.Coherent := by
  rw [failover, Co.exec_bind, Co.exec_remark]
  simp only
  rw [Co.exec_bind, Co.exec_withLock]
  have hend := switchHost_coherent (i := i) hE fromHost verifyCurrent n
    ((w.log (.noted i (.failoverEntered fromHost verifyCurrent))).log (.locked i)) hw
  rcases hrun : (switchHost fromHost verifyCurrent).exec E i n
    ((w.log (.noted i (.failoverEntered fromHost verifyCurrent))).log (.locked i)) with
    ⟨e | verdict, n', w'⟩
  · rw [hrun] at hend
    exact hend
  · rw [hrun] at hend
    exact hend

end Exec

/-! ## Refinement of the abstract host list -/

/-- The non-empty strings among the values handed to {lit}`learn_hosts`. -/
def namesOf (hosts : List Json) : List String :=
  hosts.filterMap fun
    | .str host => if host = "" then none else some host
    | _ => none

/-- The loop of {lit}`learn_hosts` appends what is new. -/
theorem keepNew_eq (kept : List String) (hosts : List Json) :
    ProxmoxVE.keepNew kept hosts = appendNew kept (namesOf hosts) := by
  induction hosts generalizing kept with
  | nil => simp [ProxmoxVE.keepNew, namesOf]
  | cons value rest ih =>
      cases value with
      | str host =>
          by_cases hempty : host = ""
          · simpa [ProxmoxVE.keepNew, namesOf, hempty] using ih kept
          · have hnames : namesOf (.str host :: rest) = host :: namesOf rest := by
              simp [namesOf, hempty]
            rw [hnames, appendNew_cons, ProxmoxVE.keepNew]
            by_cases hmem : host ∈ kept
            · simp [hmem, ih]
            · simp [hempty, hmem, ih]
      | null => exact ih kept
      | bool b => exact ih kept
      | int n => exact ih kept
      | float q => exact ih kept
      | arr items => exact ih kept
      | obj fields => exact ih kept

namespace ProxmoxVE

/-- The list is the one described, and the index names the host in use. -/
structure Represents (c : ProxmoxVE) (k : KnownHosts String) : Prop where
  hosts : c.hosts = k.all
  current : c.hosts[c.hostIndex]? = some k.current

/-- What a client hears: more hosts, or all there are. -/
def hear (k : KnownHosts String) (names : List String) (replace : Bool) : KnownHosts String :=
  if replace then k.renew names else k.learn names

/-- News does not change which host was configured. -/
@[simp]
theorem hear_configured (k : KnownHosts String) (names : List String) (replace : Bool) :
    (hear k names replace).configured = k.configured := by
  cases replace <;> rfl

/-- Nor which host is in use. -/
@[simp]
theorem hear_current (k : KnownHosts String) (names : List String) (replace : Bool) :
    (hear k names replace).current = k.current := by
  cases replace <;> rfl

/-- Hearing the same news twice is hearing it once. -/
@[simp]
theorem hear_hear (k : KnownHosts String) (names : List String) (replace : Bool) :
    hear (hear k names replace) names replace = hear k names replace := by
  cases replace
  · exact KnownHosts.learn_learn k names
  · exact KnownHosts.renew_renew k names

/-- {lit}`learn_hosts` refines the abstract operation: list and index are
recomputed from it, and nothing else changes. -/
theorem learnHosts_eq {c : ProxmoxVE} {k : KnownHosts String} (h : c.Represents k)
    (hosts : List Json) (replace : Bool) :
    c.learnHosts hosts replace =
      .ok { c with
        hosts := (hear k (namesOf hosts) replace).all
        hostIndex := (hear k (namesOf hosts) replace).all.idxOf k.current } := by
  have hhost : c.host = .ok k.current := host_eq_ok_iff.mpr h.current
  simp only [learnHosts, hhost, keepNew_eq, h.hosts, bind, Except.bind, pure, Except.pure]
  cases replace with
  | false =>
      have hmem : k.current ∈ appendNew k.all (namesOf hosts) :=
        mem_appendNew.mpr (.inl k.current_mem_all)
      simp [hear, hmem]
  | true =>
      have hrenewed : (if k.current ∈ appendNew [k.configured] (namesOf hosts) then
          appendNew [k.configured] (namesOf hosts)
          else appendNew [k.configured] (namesOf hosts) ++ [k.current]) =
            (k.renew (namesOf hosts)).all := by
        rw [KnownHosts.all_renew, KnownHosts.renewed, appendNew_cons, appendNew_nil,
          appendNew_nil]
      have htake : k.all.take 1 = [k.configured] := rfl
      simp only [if_true, htake, hrenewed, hear]

/-- What {lit}`learn_hosts` leaves represents what the client has heard. -/
theorem represents_hear (c : ProxmoxVE) (k : KnownHosts String) (names : List String)
    (replace : Bool) :
    ({ c with
        hosts := (hear k names replace).all
        hostIndex := (hear k names replace).all.idxOf k.current } :
      ProxmoxVE).Represents (hear k names replace) where
  hosts := rfl
  current := by
    rw [hear_current]
    refine List.getElem?_idxOf ?_
    rw [← hear_current k names replace]
    exact KnownHosts.current_mem_all _

/-- The constructor puts one host into the list and uses it. -/
theorem init_hosts {args : Arguments} {client : ProxmoxVE} (h : init args = .ok client) :
    client.hosts = [cleanHost args.host] ∧ client.hostIndex = 0 ∧
      client.baseUrl = apiUrl (cleanHost args.host) client.port ∧
      (client.auth.hasRelogin = true → client.auth.baseUrl = client.baseUrl) := by
  unfold init at h
  cases hport : portOf args with
  | error e => simp [hport, bind, Except.bind] at h
  | ok port =>
      cases hauth : authOf args (apiUrl (cleanHost args.host) port) with
      | error e => simp [hport, hauth, bind, Except.bind] at h
      | ok auth =>
          simp only [hport, hauth, bind, Except.bind, pure, Except.pure, Except.ok.injEq] at h
          subst h
          refine ⟨rfl, rfl, rfl, fun hticket => ?_⟩
          unfold authOf at hauth
          split at hauth
          · cases hauth
            simp [Auth.hasRelogin] at hticket
          · cases hauth
            rfl
          · cases hauth

/-- A client just constructed agrees with itself and knows one host. -/
theorem init_represents {args : Arguments} {client : ProxmoxVE} (h : init args = .ok client) :
    client.Coherent ∧ client.Represents (.single (cleanHost args.host)) := by
  obtain ⟨hhosts, hindex, hurl, hauth⟩ := init_hosts h
  have hget : client.hosts[client.hostIndex]? = some (cleanHost args.host) := by
    simp [hhosts, hindex]
  exact ⟨⟨⟨_, hget, hurl⟩, hauth⟩, ⟨hhosts, hget⟩⟩

end ProxmoxVE

/-! ## Histories -/

/-- One thing that happens to the host list of a client: news from the cluster,
or a failover in some surroundings. -/
inductive HostStep where
  | learn (hosts : List Json) (replace : Bool)
  | failover (E : Surroundings Machine Outcome) (fromHost : Option String)
      (verifyCurrent : Bool)

namespace HostStep

/-- Nobody else touches the client meanwhile. -/
def Undisturbed : HostStep → Prop
  | learn _ _ => True
  | failover E _ _ => Quiet E

/-- The machine after the step. -/
def apply (m : Machine) : HostStep → Machine
  | learn hosts replace =>
      match m.client.learnHosts hosts replace with
      | .ok client => { m with client := client }
      | .error _ => m
  | failover E fromHost verifyCurrent =>
      ((AioProxmox.failover fromHost verifyCurrent).exec E () 0 ⟨m, []⟩).world.state

/-- Index and URLs agree, and the list is one of the abstract kind. -/
structure Sound (configured : String) (c : ProxmoxVE) : Prop where
  coherent : c.Coherent
  represents : ∃ k : KnownHosts String, c.Represents k ∧ k.configured = configured

/-- News keeps the list sound. -/
theorem sound_learn {configured : String} {c : ProxmoxVE} (hc : Sound configured c)
    (hosts : List Json) (replace : Bool) :
    ∃ c', c.learnHosts hosts replace = .ok c' ∧ Sound configured c' := by
  obtain ⟨k, hk, hconf⟩ := hc.represents
  refine ⟨_, ProxmoxVE.learnHosts_eq hk hosts replace, ⟨?_, ?_⟩, ?_⟩
  · obtain ⟨host, hhost, hurl⟩ := hc.coherent.host
    have hcur : host = k.current := by
      rw [hk.current] at hhost
      exact (Option.some.inj hhost).symm
    refine ⟨host, ?_, hurl⟩
    rw [hcur]
    have h := (ProxmoxVE.represents_hear c k (namesOf hosts) replace).current
    rwa [ProxmoxVE.hear_current] at h
  · exact hc.coherent.auth
  · exact ⟨_, ProxmoxVE.represents_hear c k (namesOf hosts) replace, by simpa using hconf⟩

/-- An undisturbed failover keeps the list sound. -/
theorem sound_failover {configured : String} {m : Machine} (hm : Sound configured m.client)
    {E : Surroundings Machine Outcome} (hE : Quiet E) (fromHost : Option String)
    (verifyCurrent : Bool) :
    Sound configured (apply m (.failover E fromHost verifyCurrent)).client := by
  obtain ⟨k, hk, hconf⟩ := hm.represents
  have hframe : (apply m (.failover E fromHost verifyCurrent)).client.withoutHost =
      m.client.withoutHost :=
    failover_keeps (i := ()) hE fromHost verifyCurrent 0 ⟨m, []⟩
  have hhosts : (apply m (.failover E fromHost verifyCurrent)).client.hosts = m.client.hosts := by
    have h := congrArg ProxmoxVE.hosts hframe
    exact h
  have hcoherent : (apply m (.failover E fromHost verifyCurrent)).client.Coherent :=
    failover_coherent hE fromHost verifyCurrent 0 ⟨m, []⟩ hm.coherent
  obtain ⟨host, hhost, -⟩ := hcoherent.host
  have hmem : host ∈ k.all := by
    rw [← hk.hosts, ← hhosts]
    exact List.mem_of_getElem? hhost
  refine ⟨hcoherent, k.moveTo host hmem, ⟨?_, hhost⟩, hconf⟩
  rw [hhosts, hk.hosts, KnownHosts.all_moveTo]

/-- Whatever happens keeps the list sound. -/
theorem sound_foldl {configured : String} (steps : List HostStep)
    (hsteps : ∀ s ∈ steps, s.Undisturbed) {m : Machine} (hm : Sound configured m.client) :
    Sound configured (steps.foldl apply m).client := by
  induction steps generalizing m with
  | nil => exact hm
  | cons s rest ih =>
      refine ih (fun s' hs' => hsteps s' (List.mem_cons_of_mem _ hs')) ?_
      have hs := hsteps s List.mem_cons_self
      cases s with
      | learn hosts replace =>
          obtain ⟨c', hc', hsound⟩ := sound_learn hm hosts replace
          simpa [apply, hc'] using hsound
      | failover E fromHost verifyCurrent =>
          exact sound_failover hm hs fromHost verifyCurrent

end HostStep

/-- After any history of news and completed failovers the host list is without
duplicates and starts with the configured host.  One more {lit}`learn_hosts`
leaves the host in use and the URLs alone, adds what is new or replaces the list,
and repeating it changes nothing. -/
theorem hostList_invariant {args : ProxmoxVE.Arguments} {client : ProxmoxVE}
    (hinit : ProxmoxVE.init args = .ok client) (clock : ℚ) (steps : List HostStep)
    (hsteps : ∀ s ∈ steps, s.Undisturbed) :
    let configured := ProxmoxVE.cleanHost args.host
    let c := (steps.foldl HostStep.apply ⟨client, clock⟩).client
    c.hosts ≠ [] ∧ c.hosts.Nodup ∧ c.hosts.head? = some configured ∧
      ∀ hosts replace, ∃ c' current,
        c.learnHosts hosts replace = .ok c' ∧
        c.host = .ok current ∧ c'.host = .ok current ∧
        c'.baseUrl = c.baseUrl ∧ c'.auth = c.auth ∧
        (replace = false →
          c'.hosts = c.hosts ++ ((namesOf hosts).filter (· ∉ c.hosts)).eraseDups) ∧
        (replace = true →
          c'.hosts = configured :: ((namesOf hosts).filter (· ≠ configured)).eraseDups ++
            if current ∈ configured :: namesOf hosts then [] else [current]) ∧
        c'.learnHosts hosts replace = .ok c' := by
  intro configured c
  obtain ⟨hcoherent, hrepresents⟩ := ProxmoxVE.init_represents hinit
  have hsound : HostStep.Sound configured c :=
    HostStep.sound_foldl steps hsteps ⟨hcoherent, _, hrepresents, rfl⟩
  obtain ⟨k, hk, hconf⟩ := hsound.represents
  refine ⟨?_, ?_, ?_, ?_⟩
  · rw [hk.hosts]
    exact List.cons_ne_nil _ _
  · rw [hk.hosts]
    exact k.nodup_all
  · rw [hk.hosts, KnownHosts.all, List.head?_cons, hconf]
  · intro hosts replace
    have hnext := ProxmoxVE.represents_hear c k (namesOf hosts) replace
    refine ⟨_, k.current, ProxmoxVE.learnHosts_eq hk hosts replace,
      ProxmoxVE.host_eq_ok_iff.mpr hk.current, ?_, rfl, rfl, ?_, ?_, ?_⟩
    · rw [ProxmoxVE.host_eq_ok_iff]
      simpa using hnext.current
    · rintro rfl
      rw [hk.hosts]
      rfl
    · rintro rfl
      change (k.renew (namesOf hosts)).all = _
      rw [KnownHosts.all_renew, KnownHosts.renewed_eq, hconf]
    · rw [ProxmoxVE.learnHosts_eq hnext hosts replace]
      simp

/-- A password client that learns a second host, loses the first, and hears of a
third. -/
theorem hostList_invariant_witness :
    ∃ client, ProxmoxVE.init {
        host := "192.0.2.1:8006", user := some "root@pam", password := some "secret" } =
          .ok client ∧
      (([.learn [.str "192.0.2.2", .null, .str ""] false,
          .failover ⟨fun _ m => m, fun _ => .error (.timeoutError "")⟩ none false,
          .learn [.str "192.0.2.3"] true] : List HostStep).foldl
            HostStep.apply ⟨client, 0⟩).client.hosts.Nodup := by
  obtain ⟨client, hinit⟩ : ∃ client, ProxmoxVE.init {
      host := "192.0.2.1:8006", user := some "root@pam", password := some "secret" } =
        .ok client := ⟨_, rfl⟩
  refine ⟨client, hinit, (hostList_invariant hinit 0 _ ?_).2.1⟩
  intro s hs
  simp only [List.mem_cons, List.not_mem_nil, or_false] at hs
  rcases hs with rfl | rfl | rfl
  · trivial
  · exact fun _ _ => rfl
  · trivial

end AioProxmox
