import AioProxmox.System.Conversations
import Mathlib.Algebra.Order.Ring.Rat
import Mathlib.Tactic.Linarith
import Mathlib.Tactic.Ring

/-!
# System - how long a request can take

Every exchange ends within its timeout.  Added up over one call of {lit}`request` the timeouts
stay below a bound that depends on the client's timeout and on how many hosts it knows; what
other tasks do to the client does not matter, as long as it knows no more hosts and has no
longer timeouts.  The time a task waits for the lock is the time others search.

Main results:

- Definition {lit}`requestBudget`: the bound.
- Theorem {lit}`request_inTime`: in every run of any pool the exchanges of a request keep
  below it.
-/

namespace AioProxmox

open Coroutine

/-- The client knows at most {lit}`n` hosts, and neither it nor its authentication waits
longer than {lit}`total`. -/
structure Machine.Within (n : Nat) (total : ℚ) (m : Machine) : Prop where
  hosts : m.client.hosts.length ≤ n
  client : m.client.timeout ≤ total
  auth : ∀ auth, m.client.auth = .ticket auth → auth.timeout ≤ total

/-- The time an exchange may take. -/
def Exchange.timeout (q : Exchange) : ℚ :=
  q.request.timeout

/-- The time that some probes may take. -/
def probesBudget (count : Nat) : ℚ :=
  count * probeTimeout

/-- The time that a renewal may take: two posts that are refused, and two of the login with
the password. -/
def renewalBudget (total : ℚ) : ℚ :=
  total + total + (total + total)

/-- The time of a search among {lit}`n` hosts: the probe of the current one, and of the
others. -/
def searchBudget (n : Nat) (verifyCurrent : Bool) : ℚ :=
  (if verifyCurrent then probeTimeout else 0) + probesBudget (n - 1)

/-- The time a request may take: a renewal, a search for another host and a renewal there, the
request, and either a login or a search and the request again. -/
def requestBudget (n : Nat) (total : ℚ) : ℚ :=
  renewalBudget total + (searchBudget n false + renewalBudget total) +
    (total + (max (total + total) (searchBudget n true) + total))

section Costs

variable {n : Nat} {total b : ℚ} {α : Type}

/-- No probe takes less than no time. -/
theorem probesBudget_nonneg (count : Nat) : 0 ≤ probesBudget count :=
  mul_nonneg (Nat.cast_nonneg count) (by simp [probeTimeout])

/-- One probe more takes one timeout more. -/
theorem probesBudget_succ (count : Nat) :
    probesBudget (count + 1) = probeTimeout + probesBudget count := by
  simp only [probesBudget, Nat.cast_add, Nat.cast_one]
  ring

/-- A renewal takes no less than no time. -/
theorem renewalBudget_nonneg (h : 0 ≤ total) : 0 ≤ renewalBudget total := by
  unfold renewalBudget
  linarith

/-- A login changes no timeout and no host. -/
theorem kept_mapTicket : KeptByLogins (Machine.Within n total) := by
  intro m f hf hm
  rcases m.mapTicket_cases f with ⟨auth, hauth, hmapped⟩ | hsame
  · rw [hmapped]
    refine ⟨hm.hosts, hm.client, fun auth' hauth' => ?_⟩
    cases hauth'
    rw [hf auth]
    exact hm.auth auth hauth
  · rw [hsame]
    exact hm

/-- A move changes no timeout and no host. -/
theorem kept_moves : KeptByMoves (Machine.Within n total) where
  index _ _ hm := ⟨hm.hosts, hm.client, hm.auth⟩
  host m host hm := by
    refine ⟨hm.hosts, hm.client, fun auth hauth => ?_⟩
    cases hold : m.client.auth with
    | token old =>
        simp [ProxmoxVE.pointAt, hold, Auth.setBaseUrl] at hauth
    | ticket old =>
        simp only [ProxmoxVE.pointAt, hold, Auth.setBaseUrl, Auth.ticket.injEq] at hauth
        rw [← hauth]
        exact hm.auth old hold

/-- A part of the client takes no more than some time. -/
abbrev Takes (n : Nat) (total b : ℚ) (p : Prog α) : Prop :=
  p.Spends (Machine.Within n total) Exchange.timeout b

/-! ## Logging in -/

/-- The authentication that is read waits no longer than the bound. -/
theorem ticketAuth_within : ticketAuth.Mute (Machine.Within n total)
    fun r => ∀ auth, r = .ok auth → auth.timeout ≤ total := by
  refine Co.Mute.state_bind fun m hm => ?_
  cases hauth : m.client.auth with
  | ticket auth =>
      simp only [hauth]
      refine .pure fun auth' hauth' => ?_
      cases hauth'
      exact hm.auth auth hauth
  | token auth =>
      simp only [hauth]
      exact .throw (by simp)

/-- A post takes its timeout. -/
theorem postTicket_takes {purpose : Purpose} {auth : ProxmoxHTTPAuth} {timeout : ℚ}
    {data : Dict} (htotal : 0 ≤ total) (htimeout : timeout ≤ total) :
    Takes n total total (postTicket purpose auth timeout data) :=
  .await htotal htimeout

/-- A second factor takes one post. -/
theorem secondFactor_takes (otp : Option Bool) (otptype : Option String) {timeout : ℚ}
    (htotal : 0 ≤ total) (htimeout : timeout ≤ total) :
    Takes n total total (secondFactor otp otptype timeout) := by
  refine .mute_bind ticketAuth_within htotal fun auth _ => ?_
  refine (postTicket_takes htotal htimeout).bind_free fun response => ?_
  refine .mute_bind (.ofExcept (R := fun _ => True) trivial) (le_refl 0) fun otpJson _ => ?_
  refine .mute_bind (.ofExcept (R := fun _ => True) trivial) (le_refl 0) fun data _ => ?_
  split_ifs
  · exact .mute (adoptTokens_mute kept_mapTicket data)
  · exact .throw _

/-- A login takes two posts. -/
theorem getNewTokens_takes (password : Option String) (otp : Option Bool)
    (otptype : Option String) (htotal : 0 ≤ total) :
    Takes n total (total + total) (getNewTokens password otp otptype) := by
  have htwice : 0 ≤ total + total := add_nonneg htotal htotal
  refine .mute_bind ticketAuth_within htwice fun auth hauth => ?_
  refine (postTicket_takes htotal (hauth auth rfl)).bind (fun response => ?_) htotal
  split_ifs
  · refine .mute_bind (.ofExcept (R := fun _ => True) trivial) htotal fun resJson _ => ?_
    refine .mute_bind (.ofExcept (R := fun _ => True) trivial) htotal fun data _ => ?_
    refine .mute_bind (adoptTokens_mute kept_mapTicket data) htotal fun _ _ => ?_
    refine .mute_bind (adoptCapabilities_mute kept_mapTicket data) htotal fun _ _ => ?_
    refine .mute_bind (.ofExcept (R := fun _ => True) trivial) htotal fun needTfa _ => ?_
    split_ifs
    · exact secondFactor_takes otp otptype htotal (hauth auth rfl)
    · exact (Co.Spends.pure _).mono htotal
  · refine .mute_bind ticketAuth_within htotal fun now _ => ?_
    exact (Co.Spends.throw _).mono htotal

/-- {lit}`relogin` takes two posts. -/
theorem relogin_takes (htotal : 0 ≤ total) : Takes n total (total + total) relogin := by
  have htwice : 0 ≤ total + total := add_nonneg htotal htotal
  have hinit : Takes n total (total + total) asyncInit :=
    .mute_bind ticketAuth_within htwice fun auth _ => getNewTokens_takes _ _ _ htotal
  exact .remark_bind (hinit.bind_free fun _ => .remark _)

/-- A renewal takes one that is refused and a login with the password, of two posts each. -/
theorem checkAndRefresh_takes (htotal : 0 ≤ total) :
    Takes n total (renewalBudget total) checkAndRefresh := by
  have htwice : 0 ≤ total + total := add_nonneg htotal htotal
  refine .state_bind (renewalBudget_nonneg htotal) fun m _ => ?_
  cases hauth : m.client.auth with
  | token auth =>
      dsimp only
      exact (Co.Spends.pure _).mono (renewalBudget_nonneg htotal)
  | ticket auth =>
      dsimp only
      split_ifs
      · refine (getNewTokens_takes none none none htotal).tryCatch (fun e => ?_) htwice
        unfold refused
        split
        · exact relogin_takes htotal
        · exact (Co.Spends.throw _).mono htwice
      · exact (Co.Spends.pure _).mono (renewalBudget_nonneg htotal)

/-! ## Searching -/

/-- A request waits as long as it is told to, or as the client does. -/
theorem buildRequest_timeout {client : ProxmoxVE} {method path : String}
    {jsonData params : Option Dict} {timeout : Option ℚ} {request : HttpRequest}
    (h : buildRequest client method path jsonData params timeout = .ok request) :
    request.timeout = timeout.elim client.timeout fun t => if t = 0 then client.timeout else t := by
  unfold buildRequest at h
  rcases hheaders : client.auth.getHeaders with e | headers
  · rw [hheaders] at h
    contradiction
  · rw [hheaders] at h
    cases h
    cases timeout <;> rfl

/-- One request takes its timeout. -/
theorem requestOnce_takes (purpose : Purpose) (method path : String)
    (jsonData params : Option Dict) {timeout : Option ℚ} (hb : 0 ≤ b)
    (htimeout : ∀ m : Machine, m.Within n total →
      (timeout.elim m.client.timeout fun t => if t = 0 then m.client.timeout else t) ≤ b) :
    Takes n total b (requestOnce purpose method path jsonData params timeout) := by
  refine .state_bind hb fun m hm => ?_
  refine .mute_bind (.ofExcept (R := fun r => r = buildRequest m.client method path jsonData params
    timeout) rfl) hb fun request hrequest => ?_
  have hle : Exchange.timeout ⟨purpose, request⟩ ≤ b := by
    rw [Exchange.timeout, buildRequest_timeout hrequest.symm]
    exact htimeout m hm
  exact (Co.Spends.await hb hle).bind_free fun response =>
    .mute (.ofExcept (R := fun _ => True) trivial)

/-- The request itself. -/
theorem send_takes (method path : String) (jsonData params : Option Dict) (htotal : 0 ≤ total) :
    Takes n total total (requestOnce .request method path jsonData params none) :=
  requestOnce_takes .request method path jsonData params htotal fun _ hm => hm.client

/-- A probe takes its own timeout. -/
theorem answers_takes (candidate : Bool) : Takes n total probeTimeout (answers candidate) := by
  have hb : (0 : ℚ) ≤ probeTimeout := by simp [probeTimeout]
  have honce : Takes n total probeTimeout
      (requestOnce (.probe candidate) "GET" "version" none none (some probeTimeout)) :=
    requestOnce_takes _ _ _ _ _ hb fun m _ => by simp [probeTimeout]
  have hbody : Takes n total probeTimeout (do
      let _ ← requestOnce (.probe candidate) "GET" "version" none none (some probeTimeout)
      return true) := honce.bind_free fun _ => .pure true
  exact (hbody.tryCatch (fun e => .mute (silent_mute e)) (le_refl 0)).mono (add_zero _).le

/-- The walk takes a probe for each candidate. -/
theorem walk_takes (start : Nat) (offsets : List Nat) :
    Takes n total (probesBudget offsets.length) (walk start offsets) := by
  induction offsets with
  | nil =>
      refine .mute_bind (useHost_mute kept_moves start) (probesBudget_nonneg 0) fun _ _ => ?_
      exact (Co.Spends.pure false).mono (probesBudget_nonneg 0)
  | cons offset offsets ih =>
      have hrest := probesBudget_nonneg offsets.length
      rw [List.length_cons, probesBudget_succ]
      have hprobe : Takes n total probeTimeout (answers true) := answers_takes true
      have hb := add_nonneg hprobe.nonneg hrest
      refine .state_bind hb fun m _ => ?_
      refine .mute_bind (useHost_mute kept_moves _) hb fun _ _ => ?_
      refine hprobe.bind (fun there => ?_) hrest
      split_ifs
      · refine .state_bind hrest fun m' _ => ?_
        refine .mute_bind (.ofExcept (R := fun _ => True) trivial) hrest fun _ _ => ?_
        refine .mute_bind currentHost_mute hrest fun _ _ => ?_
        exact (Co.Spends.pure true).mono hrest
      · exact ih

/-- The host in use is asked where that is wanted. -/
theorem stillAnswers_takes (verifyCurrent : Bool) :
    Takes n total (if verifyCurrent then probeTimeout else 0) (stillAnswers verifyCurrent) := by
  unfold stillAnswers
  split_ifs
  · exact answers_takes false
  · exact .pure false

/-- A search takes no less than no time. -/
theorem searchBudget_nonneg (n : Nat) (verifyCurrent : Bool) :
    0 ≤ searchBudget n verifyCurrent := by
  have hstill : Takes n 0 (if verifyCurrent then probeTimeout else 0)
      (stillAnswers verifyCurrent) := stillAnswers_takes verifyCurrent
  exact add_nonneg hstill.nonneg (probesBudget_nonneg (n - 1))

/-- More probes take more time. -/
theorem probesBudget_mono {count count' : Nat} (h : count ≤ count') :
    probesBudget count ≤ probesBudget count' :=
  mul_le_mul_of_nonneg_right (Nat.cast_le.mpr h) (by simp [probeTimeout])

/-- {lit}`failover` takes the probes of a search, however long it waits for the lock. -/
theorem failover_takes (fromHost : Option String) (verifyCurrent : Bool) :
    Takes n total (searchBudget n verifyCurrent) (failover fromHost verifyCurrent) := by
  have hb := searchBudget_nonneg n verifyCurrent
  have hrest := probesBudget_nonneg (n - 1)
  have hswitch : Takes n total (searchBudget n verifyCurrent)
      (switchHost fromHost verifyCurrent) := by
    refine .state_bind hb fun m _ => ?_
    refine .mute_bind (movedFrom_mute fromHost) hb fun moved _ => ?_
    split_ifs
    · refine .mute_bind currentHost_mute hb fun _ _ => ?_
      exact (Co.Spends.pure true).mono hb
    · refine (stillAnswers_takes verifyCurrent).bind (fun stillThere => ?_) hrest
      split_ifs
      · refine .mute_bind currentHost_mute hrest fun _ _ => ?_
        exact (Co.Spends.pure false).mono hrest
      · refine .state_bind hrest fun m' hm' => ?_
        refine (walk_takes _ _).mono (probesBudget_mono ?_)
        rw [List.length_range']
        exact Nat.sub_le_sub_right hm'.hosts 1
  exact .remark_bind (hswitch.withLock.bind_free fun verdict =>
    .remark_bind (.pure verdict))

/-- {lit}`failover` takes the probes of a search where it is called for peers. -/
theorem failoverIfPeers_takes (fromHost : Option String) (verifyCurrent : Bool) :
    Takes n total (searchBudget n verifyCurrent) (failoverIfPeers fromHost verifyCurrent) := by
  have hb := searchBudget_nonneg n verifyCurrent
  refine .state_bind hb fun m _ => ?_
  dsimp only
  split_ifs
  · exact (Co.Spends.pure false).mono hb
  · exact failover_takes fromHost verifyCurrent

/-! ## The request -/

variable {method path : String} {jsonData params : Option Dict}

/-- A renewal on another host takes a search and a renewal. -/
theorem renewElsewhere_takes (err : Exc) (htotal : 0 ≤ total) :
    Takes n total (searchBudget n false + renewalBudget total) (renewElsewhere err) := by
  have hrenewal := renewalBudget_nonneg htotal
  have hb := add_nonneg (searchBudget_nonneg n false) hrenewal
  unfold renewElsewhere
  split_ifs
  · refine (failoverIfPeers_takes none false).bind (fun moved => ?_) hrenewal
    split_ifs
    · exact checkAndRefresh_takes htotal
    · exact (Co.Spends.throw _).mono hrenewal
  · exact (Co.Spends.throw _).mono hb

/-- A recovery takes a login or a search, and a request. -/
theorem recover_takes (hostBefore : String) (err : Exc) (htotal : 0 ≤ total) :
    Takes n total (max (total + total) (searchBudget n true) + total)
      (recover method path jsonData params hostBefore err) := by
  have hb : 0 ≤ max (total + total) (searchBudget n true) + total :=
    add_nonneg (le_max_of_le_left (add_nonneg htotal htotal)) htotal
  unfold recover
  split
  · refine .state_bind hb fun m _ => ?_
    dsimp only
    split_ifs
    · exact (Co.Spends.throw _).mono hb
    · refine ((relogin_takes htotal).mono (le_max_left _ _)).bind (fun _ => ?_) htotal
      exact send_takes method path jsonData params htotal
  · split_ifs
    · refine ((failoverIfPeers_takes (some hostBefore) true).mono (le_max_right _ _)).bind
        (fun moved => ?_) htotal
      split_ifs
      · exact send_takes method path jsonData params htotal
      · exact (Co.Spends.throw _).mono htotal
    · exact (Co.Spends.throw _).mono hb

/-- A request takes a renewal here and elsewhere, itself, and its recovery. -/
theorem request_takes (htotal : 0 ≤ total) :
    Takes n total (requestBudget n total) (request method path jsonData params) := by
  have hrenewal := add_nonneg (searchBudget_nonneg n false) (renewalBudget_nonneg htotal)
  have hrecover : 0 ≤ max (total + total) (searchBudget n true) + total :=
    add_nonneg (le_max_of_le_left (add_nonneg htotal htotal)) htotal
  have hsend := add_nonneg htotal hrecover
  refine ((checkAndRefresh_takes htotal).tryCatch
    (fun err => renewElsewhere_takes err htotal) hrenewal).bind (fun _ => ?_) hsend
  refine .mute_bind currentHost_mute hsend fun hostBefore _ => ?_
  exact (send_takes method path jsonData params htotal).tryCatch
    (fun err => recover_takes hostBefore err htotal) hrecover

end Costs

/-- Whatever the other tasks are and do, as long as the client knows at most {lit}`n` hosts and
no timeout is above {lit}`total`, at no time have the timeouts of a request's exchanges added
up to more than its budget. -/
theorem request_inTime {τ σ : Type} [DecidableEq τ] {n : Nat} {total : ℚ} (htotal : 0 ≤ total)
    (method path : String) (jsonData params : Option Dict) {i : τ}
    {tasks : τ → Co (σ × Machine) Exchange Outcome Exc Remark Json}
    (hi : tasks i = (request method path jsonData params).beside) (s : σ × Machine)
    {c : Config τ (σ × Machine) Exchange Outcome Exc Remark Json}
    (hrun : Config.Reaches (fun c _ => c.world.state.2.Within n total) (.initial s tasks) c) :
    Along (Asked (fun l q => spent Exchange.timeout l + q.timeout ≤ requestBudget n total) i)
      c.world.history := by
  refine hrun.spends (S := fun s : σ × Machine => s.2.Within n total) ?_
    fun _ _ hallowed => hallowed
  rw [hi]
  exact (request_takes htotal).beside

/-- Two tasks ask for something; the host of the first is lost, and it looks for another one
and asks again there, while the second waits for its answer. -/
def lostAndFound {τ σ : Type} (first other : τ) : List (Action τ (σ × Machine) Outcome) :=
  [.start first, .start other, .resume first (replyOf false), .lock first,
    .resume first (replyOf false), .resume first (replyOf true)]

/-- Nothing but the scheduler acts. -/
theorem lostAndFound_scheduler {σ α : Type}
    (c : Config (Fin 2) (σ × Machine) Exchange Outcome Exc Remark α) :
    ∀ a ∈ lostAndFound (σ := σ) 0 1, Config.SchedulerOnly c a := by
  simp [lostAndFound, Config.SchedulerOnly]

/-- A client that is logged in waits as long as clients do where no timeout is given. -/
theorem loggedIn_within (hosts : List String) (monotonic : ℚ) :
    Machine.Within hosts.length 5 ⟨.loggedIn hosts, monotonic⟩ :=
  ⟨le_refl hosts.length, le_refl 5, fun auth hauth => by
    cases hauth
    exact le_refl 5⟩

/-- A request that is made, two probes and the request that is made again, on a client with two
hosts. -/
theorem request_inTime_witness :
    ∃ (c : Config (Fin 2) (Unit × Machine) Exchange Outcome Exc Remark Json) (q : Exchange)
      (before : List (Event (Fin 2) Exchange Outcome Remark)),
      c.world.history = .sent 0 q :: before ∧ (conversation 0 before).length = 3 ∧
        spent Exchange.timeout (conversation 0 before) + q.timeout ≤ requestBudget 2 5 := by
  obtain ⟨c, q, before, hrun, hhistory, hlength⟩ : ∃ c q before, Config.run
      (.initial ((), ⟨.loggedIn ["192.0.2.1", "192.0.2.2"], 0⟩) fun _ : Fin 2 =>
        (request "GET" "nodes" none none).beside) (lostAndFound 0 1) = some c ∧
      c.world.history = .sent 0 q :: before ∧ (conversation 0 before).length = 3 :=
    ⟨_, _, _, by and_intros <;> with_unfolding_all rfl⟩
  have hrun : Config.Reaches (fun c _ => c.world.state.2.Within 2 5) _ c :=
    (Config.reaches_of_run lostAndFound_scheduler hrun).keeping
      (S := fun s : Unit × Machine => s.2.Within 2 5)
      (fun _ => (request_takes (by decide)).beside.talks []) (loggedIn_within [_, _] 0)
      fun _ f hf => absurd rfl (hf f)
  have hasked := request_inTime (by decide) "GET" "nodes" none none (i := 0) (by rfl) _ hrun
  rw [hhistory] at hasked
  exact ⟨c, q, before, hhistory, hlength, hasked.1 q rfl⟩

/-- Three hosts and the timeout that clients have where none is given. -/
example : requestBudget 3 5 = 100 := by
  decide +kernel

end AioProxmox
