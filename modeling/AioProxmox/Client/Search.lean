import AioProxmox.Client.Burst
import AioProxmox.Client.Selection
import AioProxmox.Collections.Polling
import AioProxmox.Coroutine.Effects

/-!
# Client - one undisturbed search

What {lit}`failover` does when nobody else touches the client: it asks hosts in
cyclic order, the host in use before the others if it is to be verified, and ends
as that asking does.  A candidate is put in use before it is asked and the start is
put back only where all candidates have refused.

Main results:

- Theorem {lit}`exec_failover`: an undisturbed failover is the asking of
  {lit}`searchOrder`, and every course it can take.
- Theorem {lit}`failover_finds`: where each host answers or not throughout, the
  verdict, the host in use and the probes made.
- Theorem {lit}`failover_restores_iff`: after a probe that raises, the client is where
  it was exactly if the host that was asked is the one it was on.
-/

namespace AioProxmox

open Coroutine Collections

/-! ## One probe -/

/-- How a probe ends: its headers cannot be built, or with a verdict on the answer. -/
def ProxmoxVE.probeEnd (client : ProxmoxVE) (reply : Outcome) : Except Exc Bool :=
  match client.auth.headersError with
  | some e => .error e
  | none => verdictOf reply

/-- Where the headers can be built a probe ends in its verdict. -/
theorem ProxmoxVE.probeEnd_eq {client : ProxmoxVE} (h : client.auth.headersError = none)
    (reply : Outcome) : client.probeEnd reply = verdictOf reply := by
  rw [probeEnd, h]

/-- A probe that ends in a verdict has had its headers. -/
theorem headers_of_probeEnd {client : ProxmoxVE} {reply : Outcome} {there : Bool}
    (h : client.probeEnd reply = .ok there) : client.auth.headersError = none := by
  unfold ProxmoxVE.probeEnd at h
  split at h
  · contradiction
  · assumption

/-- Where a probe went, and its answer. -/
def probeOf (asked : Exchange × Outcome) : String × Outcome :=
  (asked.1.request.url, asked.2)

/-- Some hosts have been probed, one after the other. -/
structure ProbedInOrder {τ : Type} (first : ProxmoxVE) (E : Surroundings Machine Outcome)
    (hosts : List String) (n n' : Nat) (w w' : World τ Machine Exchange Outcome Remark) :
    Prop where
  calls : n' = n + hosts.length
  answered : w'.answered.map probeOf = w.answered.map probeOf ++
    (hosts.zipIdx n).map fun asked => (probeUrl first asked.1, E.reply asked.2)

/-- The host is in use, and the client is otherwise the given one. -/
structure Placed (c : ProxmoxVE) (host : String) (c' : ProxmoxVE) : Prop where
  frame : c'.withoutHost = c.withoutHost
  current : c'.hosts[c'.hostIndex]? = some host
  url : c'.baseUrl = apiUrl host c.port
  authUrl : c'.auth.baseUrl = apiUrl host c.port

section Probe

variable {τ : Type} {E : Surroundings Machine Outcome} {i : τ} {n n' n'' : Nat}
  {w w' w'' : World τ Machine Exchange Outcome Remark} {first c c' : ProxmoxVE}
  {host : String} {hosts hosts' : List String}

/-- Nobody is probed where nothing is answered. -/
theorem probedInOrder_nil (h : w'.answered = w.answered) :
    ProbedInOrder first E [] n n w w' where
  calls := rfl
  answered := by simp [h]

/-- Only what was answered before and after matters. -/
theorem ProbedInOrder.congr {w₁ w₂ : World τ Machine Exchange Outcome Remark}
    (h : ProbedInOrder first E hosts n n' w w') (h₁ : w₁.answered = w.answered)
    (h₂ : w₂.answered = w'.answered) : ProbedInOrder first E hosts n n' w₁ w₂ where
  calls := h.calls
  answered := by rw [h₁, h₂, h.answered]

/-- Probes in order after probes in order. -/
theorem ProbedInOrder.trans (h : ProbedInOrder first E hosts n n' w w')
    (h' : ProbedInOrder first E hosts' n' n'' w' w'') :
    ProbedInOrder first E (hosts ++ hosts') n n'' w w'' where
  calls := by rw [h'.calls, h.calls, List.length_append, Nat.add_assoc]
  answered := by
    rw [h'.answered, h.answered, h.calls, List.zipIdx_append, List.map_append,
      List.append_assoc]

/-- Where the probes went. -/
theorem ProbedInOrder.urls (h : ProbedInOrder first E hosts n n' w w') :
    w'.answered.map (fun asked => asked.1.request.url) =
      w.answered.map (fun asked => asked.1.request.url) ++ hosts.map (probeUrl first) := by
  have hurls := congrArg (List.map Prod.fst) h.answered
  rw [List.map_append, List.map_map, List.map_map, List.map_map] at hurls
  have hhosts : hosts.map (probeUrl first) =
      (hosts.zipIdx n).map (probeUrl first ∘ Prod.fst) := by
    rw [← List.map_map, List.zipIdx_map_fst]
  rw [hhosts]
  exact hurls

/-- One exchange is one probe. -/
theorem probedInOrder_exchanged {q : Exchange} (h : q.request.url = probeUrl first host) :
    ProbedInOrder first E [host] n (n + 1) w (exchanged E i q n w) where
  calls := rfl
  answered := by simp [exchanged, World.answered, probeOf, h]

/-- What the frame of a failover fixes. -/
theorem withoutHost_eq (h : c'.withoutHost = c.withoutHost) :
    c'.hosts = c.hosts ∧ c'.port = c.port ∧ c'.auth.headersError = c.auth.headersError := by
  have hheaders : ∀ c : ProxmoxVE, c.withoutHost.auth.headersError = c.auth.headersError := by
    intro c
    unfold ProxmoxVE.withoutHost Auth.headersError
    rw [Auth.getHeaders_setBaseUrl]
  have hhosts := congrArg ProxmoxVE.hosts h
  have hport := congrArg ProxmoxVE.port h
  refine ⟨hhosts, hport, ?_⟩
  rw [← hheaders c', ← hheaders c, h]

/-- How a probe ends does not depend on the host. -/
theorem probeEnd_of_withoutHost (h : c'.withoutHost = c.withoutHost) (reply : Outcome) :
    c'.probeEnd reply = c.probeEnd reply := by
  unfold ProxmoxVE.probeEnd
  rw [(withoutHost_eq h).2.2]

/-- A host of the list put in use, from any other. -/
theorem placed_placedAt (h : c'.withoutHost = c.withoutHost) {index : Nat}
    (hhost : c.hosts[index]? = some host) : Placed c host (c'.placedAt index host) where
  frame := by
    rw [← h]
    unfold ProxmoxVE.withoutHost ProxmoxVE.placedAt ProxmoxVE.pointAt
    cases c'.auth <;> rfl
  current := by
    rw [ProxmoxVE.placedAt_hosts, ProxmoxVE.placedAt_hostIndex, (withoutHost_eq h).1]
    exact hhost
  url := by rw [ProxmoxVE.placedAt_baseUrl, (withoutHost_eq h).2.1]
  authUrl := by
    rw [ProxmoxVE.placedAt_auth, Auth.baseUrl_setBaseUrl, (withoutHost_eq h).2.1]

/-- The host in use is where the client was placed. -/
theorem Placed.inUse (h : Placed c host c') : c'.host = .ok host :=
  ProxmoxVE.host_eq_ok_iff.mpr h.current

/-- A probe of a placed client goes to the host it was placed on. -/
theorem Placed.probeUrl_eq (h : Placed c host c') :
    addressOf c'.baseUrl "version" = probeUrl c host := by
  rw [h.url]
  rfl

/-- A probe that is sent is one exchange and ends with the verdict on its answer. -/
theorem exec_answers_sent {request : HttpRequest} (candidate : Bool)
    (hbuilt : buildRequest w.state.client "GET" "version" none none (some probeTimeout) =
      .ok request) (hrange : (E.during n w.state).client.InRange) :
    (answers candidate).exec E i n w =
      ⟨verdictOf (E.reply n), n + 1, exchanged E i ⟨.probe candidate, request⟩ n w⟩ := by
  rcases hrange.host with ⟨current, hcurrent⟩
  have hattempt := exec_requestOnce E i n w (.probe candidate) "GET" "version" none none
    (some probeTimeout)
  rw [hbuilt] at hattempt
  unfold answers verdictOf
  cases hread : E.reply n >>= readResponse "version" with
  | ok v =>
      rw [hread] at hattempt
      rw [Co.exec_tryCatch, Co.exec_bind_ok hattempt]
      rfl
  | error e =>
      rw [hread] at hattempt
      rw [Co.exec_tryCatch_error (Co.exec_bind_error hattempt _)]
      -- The log lines of the clauses read the host in use.
      cases e <;>
        simp [silent, exchanged, hcurrent, Exc.isProxmoxAPIError, Exc.isProxmoxError,
          Exc.isClientError, Exc.isTimeoutError]

/-- A probe is one exchange, unless its headers cannot be built, and leaves the client
alone. -/
theorem exec_answers (first : ProxmoxVE) (host : String) (hE : Quiet E) (candidate : Bool)
    (hrange : w.state.client.InRange) :
    ∃ n' w', (answers candidate).exec E i n w =
        ⟨w.state.client.probeEnd (E.reply n), n', w'⟩ ∧
      w'.state.client = w.state.client ∧
      (w.state.client.auth.headersError = none → n' = n + 1 ∧
        (addressOf w.state.client.baseUrl "version" = probeUrl first host →
          ProbedInOrder first E [host] n n' w w')) := by
  rcases hheaders : w.state.client.auth.headersError with _ | e
  · rcases buildRequest_carries (.probe candidate) "GET" "version" none none
      (some probeTimeout) hheaders with ⟨request, hbuilt, -⟩
    have hafter : (E.during n w.state).client.InRange := by
      rw [hE]
      exact hrange
    refine ⟨n + 1, exchanged E i ⟨.probe candidate, request⟩ n w, ?_, hE n w.state,
      fun _ => ⟨rfl, fun hurl => probedInOrder_exchanged ((buildRequest_url hbuilt).trans hurl)⟩⟩
    rw [ProxmoxVE.probeEnd_eq hheaders]
    exact exec_answers_sent candidate hbuilt hafter
  · refine ⟨n, w, ?_, rfl, by simp⟩
    have hattempt := exec_attempt_error (E := E) (i := i) (n := n) (w := w) (.probe candidate)
      "GET" "version" none none (some probeTimeout) hheaders
    unfold answers ProxmoxVE.probeEnd
    rw [hheaders, Co.exec_tryCatch_error (Co.exec_bind_error hattempt _)]
    rcases (Auth.headersError_keyError hheaders).2 with ⟨key, rfl⟩
    rfl

end Probe

/-! ## The walk -/

/-- The hosts a failover may ask, in order. -/
def searchOrder (c : ProxmoxVE) (current : String) (verifyCurrent : Bool) : List String :=
  if verifyCurrent then current :: cyclicAfter c.hosts c.hostIndex
  else cyclicAfter c.hosts c.hostIndex

/-- How a walk ends, as the asking does: back at the start, at the candidate that
answered, or at the one whose probe raised. -/
inductive WalkEnds (c : ProxmoxVE) (current : String) :
    Poll Exc String → Except Exc Bool → ProxmoxVE → Prop where
  | vain {c'} : Placed c current c' → c'.hostIndex = c.hostIndex →
      WalkEnds c current .vain (.ok false) c'
  | accepted {host c'} : Placed c host c' → WalkEnds c current (.accepted host) (.ok true) c'
  | raised {host e c'} : Placed c host c' →
      WalkEnds c current (.raised host e) (.error e) c'

section Walk

variable {τ : Type} {E : Surroundings Machine Outcome} {i : τ} {c : ProxmoxVE}
  {current : String}

/-- One candidate: it is put in use and asked, and its verdict ends the walk or goes on with
the rest. -/
theorem exec_walk_cons (hE : Quiet E) (hcurrent : c.hosts[c.hostIndex]? = some current)
    {offset : Nat} (rest : List Nat) {host : String}
    (hhost : c.hosts[cyclicIndex c.hosts c.hostIndex offset]? = some host) (n : Nat)
    {w : World τ Machine Exchange Outcome Remark}
    (hw : w.state.client.withoutHost = c.withoutHost) :
    ∃ n₁ w₁, Placed c host w₁.state.client ∧
      (c.auth.headersError = none → n₁ = n + 1 ∧ ProbedInOrder c E [host] n n₁ w w₁) ∧
      (walk c.hostIndex (offset :: rest)).exec E i n w =
        match c.probeEnd (E.reply n) with
        | .error e => ⟨.error e, n₁, w₁⟩
        | .ok true => ⟨.ok true, n₁, w₁⟩
        | .ok false => (walk c.hostIndex rest).exec E i n₁ w₁ := by
  let index := cyclicIndex c.hosts c.hostIndex offset
  let w₀ : World τ Machine Exchange Outcome Remark :=
    { w with state := w.state.placedAt index host }
  have hplaced : Placed c host w₀.state.client := placed_placedAt hw hhost
  rcases exec_answers (i := i) (n := n) (w := w₀) c host hE true
    (List.getElem?_eq_some_iff.mp hplaced.current).1 with ⟨n₁, w₁, hprobe, hclient, hexchange⟩
  rw [probeEnd_of_withoutHost hplaced.frame] at hprobe
  rw [(withoutHost_eq hplaced.frame).2.2] at hexchange
  have hplaced₁ : Placed c host w₁.state.client := hclient ▸ hplaced
  refine ⟨n₁, w₁, hplaced₁, fun hheaders => ?_, ?_⟩
  · rcases hexchange hheaders with ⟨hcalls, hprobed⟩
    exact ⟨hcalls, (hprobed hplaced.probeUrl_eq).congr rfl rfl⟩
  · have hat : w.state.client.hosts[(c.hostIndex + offset) %
        w.state.client.hosts.length]? = some host := by
      rw [(withoutHost_eq hw).1]
      exact hhost
    have hindex : (c.hostIndex + offset) % w.state.client.hosts.length = index := by
      rw [(withoutHost_eq hw).1]
      rfl
    rw [walk, Co.exec_bind, exec_self]
    simp only
    rw [Co.exec_bind_ok (exec_useHost hat), hindex]
    rcases hend : c.probeEnd (E.reply n) with e | there
    · rw [hend] at hprobe
      exact Co.exec_bind_error hprobe _
    · rw [hend] at hprobe
      rw [Co.exec_bind_ok hprobe]
      cases there with
      | true =>
          have hwarned : w₁.state.client.hostAt c.hostIndex = .ok current := by
            rw [ProxmoxVE.hostAt_eq_ok_iff, (withoutHost_eq hplaced₁.frame).1]
            exact hcurrent
          simp [hwarned, hplaced₁.inUse]
      | false => rfl

/-- The walk over some offsets asks the hosts found there. -/
theorem exec_walk (hE : Quiet E) (hcurrent : c.hosts[c.hostIndex]? = some current)
    (offsets : List Nat) (hosts : List String)
    (hhosts : offsets.map (fun offset => c.hosts[cyclicIndex c.hosts c.hostIndex offset]?) =
      hosts.map some)
    (n : Nat) (w : World τ Machine Exchange Outcome Remark)
    (hw : w.state.client.withoutHost = c.withoutHost) :
    ∃ r n' w', (walk c.hostIndex offsets).exec E i n w = ⟨r, n', w'⟩ ∧
      WalkEnds c current (poll (fun k => c.probeEnd (E.reply k)) n hosts) r w'.state.client ∧
      (c.auth.headersError = none → ProbedInOrder c E
        (polled (fun k => c.probeEnd (E.reply k)) n hosts) n n' w w') := by
  induction offsets generalizing hosts n w with
  | nil =>
      have hnone : hosts = [] := by simpa using hhosts
      subst hnone
      have hstart : w.state.client.hosts[c.hostIndex]? = some current := by
        rw [(withoutHost_eq hw).1]
        exact hcurrent
      refine ⟨.ok false, n, { w with state := w.state.placedAt c.hostIndex current }, ?_,
        .vain (placed_placedAt hw hcurrent) rfl, fun _ => probedInOrder_nil rfl⟩
      rw [walk, Co.exec_bind_ok (exec_useHost hstart)]
      rfl
  | cons offset rest ih =>
      rcases hosts with _ | ⟨host, hosts⟩
      · contradiction
      rw [List.map_cons, List.map_cons, List.cons.injEq] at hhosts
      rcases hhosts with ⟨hhost, hrest⟩
      rcases exec_walk_cons (i := i) hE hcurrent rest hhost n hw with
        ⟨n₁, w₁, hplaced, hasked, hrun⟩
      rw [hrun]
      rcases hend : c.probeEnd (E.reply n) with e | there
      · refine ⟨.error e, n₁, w₁, rfl, ?_, fun hheaders => ?_⟩
        · rw [poll_cons_raised hend]
          exact .raised hplaced
        · rw [polled_cons_raised hend]
          exact (hasked hheaders).2
      cases there with
      | true =>
          refine ⟨.ok true, n₁, w₁, rfl, ?_, fun hheaders => ?_⟩
          · rw [poll_cons_accepted hend]
            exact .accepted hplaced
          · rw [polled_cons_accepted hend]
            exact (hasked hheaders).2
      | false =>
          have hheaders := headers_of_probeEnd hend
          rcases hasked hheaders with ⟨rfl, hprobed⟩
          rcases ih hosts hrest (n + 1) w₁ hplaced.frame with ⟨r, n', w', hrest, hends, hmore⟩
          refine ⟨r, n', w', hrest, ?_, fun _ => ?_⟩
          · rw [poll_cons_refused hend]
            exact hends
          · rw [polled_cons_refused hend]
            exact hprobed.trans (hmore hheaders)

end Walk

/-! ## The whole failover -/

/-- How a failover ends that searches: the host in use answers, or asking it raises, or
the others are asked. -/
inductive FailoverEnds (c : ProxmoxVE) (current : String) (verifyCurrent : Bool)
    (reply : Nat → Except Exc Bool) (n : Nat) : Except Exc Bool → ProxmoxVE → Prop where
  | stays : verifyCurrent = true → reply n = .ok true →
      FailoverEnds c current verifyCurrent reply n (.ok false) c
  | interrupted {e} : verifyCurrent = true → reply n = .error e →
      FailoverEnds c current verifyCurrent reply n (.error e) c
  | walks {k r c'} : (verifyCurrent = true → reply n = .ok false) →
      k = (if verifyCurrent then n + 1 else n) →
      WalkEnds c current (poll reply k (cyclicAfter c.hosts c.hostIndex)) r c' →
      FailoverEnds c current verifyCurrent reply n r c'

section Failover

variable {τ : Type} {E : Surroundings Machine Outcome} {i : τ} {n : Nat}
  {w : World τ Machine Exchange Outcome Remark} {current : String}

/-- What is asked before the others. -/
theorem exec_stillAnswers (hE : Quiet E) (hcurrent : w.state.client.host = .ok current) :
    ∃ n' w', (answers false).exec E i n w =
        ⟨w.state.client.probeEnd (E.reply n), n', w'⟩ ∧
      w'.state.client = w.state.client ∧
      (w.state.client.auth.headersError = none → n' = n + 1 ∧
        (w.state.client.baseUrl = apiUrl current w.state.client.port →
          ProbedInOrder w.state.client E [current] n n' w w')) := by
  have hrange := (List.getElem?_eq_some_iff.mp (ProxmoxVE.host_eq_ok_iff.mp hcurrent)).1
  rcases exec_answers (i := i) (n := n) w.state.client current hE false
    hrange with ⟨n', w', hrun, hclient, hexchange⟩
  refine ⟨n', w', hrun, hclient, fun hheaders => ⟨(hexchange hheaders).1, fun hurl => ?_⟩⟩
  exact (hexchange hheaders).2 (by rw [hurl]; rfl)

/-- The search under the lock asks the hosts of the search order. -/
theorem exec_switchHost (hE : Quiet E) (fromHost : Option String) (verifyCurrent : Bool)
    (hcurrent : w.state.client.host = .ok current)
    (hfrom : fromHost.any (· != current) = false) :
    ∃ r n' w', (switchHost fromHost verifyCurrent).exec E i n w = ⟨r, n', w'⟩ ∧
      FailoverEnds w.state.client current verifyCurrent
        (fun k => w.state.client.probeEnd (E.reply k)) n r w'.state.client ∧
      (w.state.client.auth.headersError = none →
        w.state.client.baseUrl = apiUrl current w.state.client.port →
        ProbedInOrder w.state.client E
          (polled (fun k => w.state.client.probeEnd (E.reply k)) n
            (searchOrder w.state.client current verifyCurrent)) n n' w w') := by
  have hget := ProxmoxVE.host_eq_ok_iff.mp hcurrent
  have hmoved := exec_movedFrom E i n w hcurrent fromHost
  rw [hfrom] at hmoved
  have hwalk := fun k (w' : World τ Machine Exchange Outcome Remark)
      (hsame : w'.state.client = w.state.client) =>
    exec_walk (i := i) hE hget (List.range' 1 (w.state.client.hosts.length - 1))
      (cyclicAfter w.state.client.hosts w.state.client.hostIndex)
      (map_offsets_eq_cyclicAfter _ _) k w' (congrArg ProxmoxVE.withoutHost hsame)
  unfold switchHost
  rw [Co.exec_bind, exec_self]
  simp only
  rw [Co.exec_bind_ok hmoved]
  simp only [Bool.false_eq_true, if_false]
  cases verifyCurrent with
  | false =>
      rcases hwalk n w rfl with ⟨r, n', w', hrun, hends, hprobed⟩
      exact ⟨r, n', w', hrun, .walks (by simp) rfl hends, fun hheaders _ => hprobed hheaders⟩
  | true =>
      rcases exec_stillAnswers (i := i) (n := n) hE hcurrent with
        ⟨n₁, w₁, hprobe, hclient, hexchange⟩
      rw [stillAnswers_true]
      rcases hend : w.state.client.probeEnd (E.reply n) with e | there
      · rw [hend] at hprobe
        refine ⟨.error e, n₁, w₁, Co.exec_bind_error hprobe _, ?_, fun hheaders hurl => ?_⟩
        · rw [hclient]
          exact .interrupted rfl hend
        · rw [searchOrder, if_pos rfl, polled_cons_raised hend]
          exact (hexchange hheaders).2 hurl
      · rw [hend] at hprobe
        rw [Co.exec_bind_ok hprobe]
        cases there with
        | true =>
            refine ⟨.ok false, n₁, w₁, ?_, ?_, fun hheaders hurl => ?_⟩
            · simp [hclient, hcurrent]
            · rw [hclient]
              exact .stays rfl hend
            · rw [searchOrder, if_pos rfl, polled_cons_accepted hend]
              exact (hexchange hheaders).2 hurl
        | false =>
            have hheaders := headers_of_probeEnd hend
            rcases hexchange hheaders with ⟨rfl, hprobed⟩
            rcases hwalk (n + 1) w₁ hclient with ⟨r, n', w', hrun, hends, hmore⟩
            refine ⟨r, n', w', ?_, .walks (fun _ => hend) rfl hends, fun _ hurl => ?_⟩
            · simp only [Bool.false_eq_true, if_false, Co.exec_bind, exec_self, hclient]
              exact hrun
            · rw [searchOrder, if_pos rfl, polled_cons_refused hend]
              exact (hprobed hurl).trans (hmore hheaders)

/-- So does the whole of failover. -/
theorem exec_failover (hE : Quiet E) (fromHost : Option String) (verifyCurrent : Bool)
    (hcurrent : w.state.client.host = .ok current)
    (hfrom : fromHost.any (· != current) = false) :
    ∃ r n' w', (failover fromHost verifyCurrent).exec E i n w = ⟨r, n', w'⟩ ∧
      FailoverEnds w.state.client current verifyCurrent
        (fun k => w.state.client.probeEnd (E.reply k)) n r w'.state.client ∧
      (w.state.client.auth.headersError = none →
        w.state.client.baseUrl = apiUrl current w.state.client.port →
        ProbedInOrder w.state.client E
          (polled (fun k => w.state.client.probeEnd (E.reply k)) n
            (searchOrder w.state.client current verifyCurrent)) n n' w w') := by
  rcases exec_switchHost (i := i) (n := n)
    (w := (w.log (.noted i (.failoverEntered fromHost verifyCurrent))).log (.locked i))
    hE fromHost verifyCurrent hcurrent hfrom with ⟨r, n', w', hrun, hends, hprobed⟩
  unfold failover
  rw [Co.exec_bind, Co.exec_remark]
  simp only
  rw [Co.exec_bind, Co.exec_withLock, hrun]
  cases r with
  | ok verdict =>
      refine ⟨.ok verdict, n', _, rfl, hends, fun hheaders hurl => ?_⟩
      exact (hprobed hheaders hurl).congr rfl rfl
  | error e =>
      refine ⟨.error e, n', _, rfl, hends, fun hheaders hurl => ?_⟩
      exact (hprobed hheaders hurl).congr rfl rfl

/-- A failover whose caller was on another host asks nobody. -/
theorem exec_failover_moved {fromHost : Option String} (verifyCurrent : Bool)
    (hcurrent : w.state.client.host = .ok current)
    (hfrom : fromHost.any (· != current) = true) :
    ((failover fromHost verifyCurrent).exec E i n w).result = .ok true := by
  have hmoved := exec_movedFrom E i n
    ((w.log (.noted i (.failoverEntered fromHost verifyCurrent))).log (.locked i)) hcurrent fromHost
  rw [hfrom] at hmoved
  unfold failover switchHost
  rw [Co.exec_bind, Co.exec_remark]
  simp only
  rw [Co.exec_bind, Co.exec_withLock, Co.exec_bind, exec_self]
  simp only
  rw [Co.exec_bind_ok hmoved]
  simp [hcurrent]

end Failover

/-! ## Interrupted searches -/

/-- The k-th host a failover asks is the first not to refuse, and asking it raises. -/
def InterruptedAt (E : Surroundings Machine Outcome) (n : Nat) (c : ProxmoxVE)
    (current : String) (fromHost : Option String) (verifyCurrent : Bool) (k : Nat)
    (host : String) (e : Exc) : Prop :=
  fromHost.any (· != current) = false ∧
    RaisedAt (fun k => c.probeEnd (E.reply k)) n (searchOrder c current verifyCurrent) k host e

/-- The host in use and both URLs are what they were. -/
structure SameHost (c c' : ProxmoxVE) : Prop where
  host : c'.host = c.host
  baseUrl : c'.baseUrl = c.baseUrl
  authUrl : c'.auth.baseUrl = c.auth.baseUrl

/-- A client is on its own host. -/
theorem SameHost.refl (c : ProxmoxVE) : SameHost c c :=
  ⟨rfl, rfl, rfl⟩

/-- A candidate in use is the host that was in use only where the two are the same. -/
theorem Placed.sameHost_iff {c c' : ProxmoxVE} {host current : String} (h : Placed c host c')
    (hcurrent : c.host = .ok current) :
    SameHost c c' ↔
      host = current ∧ c.baseUrl = apiUrl host c.port ∧ c.auth.baseUrl = apiUrl host c.port := by
  constructor
  · intro hsame
    have hhost := hsame.host
    rw [h.inUse, hcurrent] at hhost
    exact ⟨Except.ok.inj hhost, hsame.baseUrl.symm.trans h.url, hsame.authUrl.symm.trans h.authUrl⟩
  · rintro ⟨rfl, hurl, hauth⟩
    exact ⟨h.inUse.trans hcurrent.symm, h.url.trans hurl.symm, h.authUrl.trans hauth.symm⟩

/-- A walk raises exactly what the first probe that is not refused raises, with the host that
was asked in use. -/
theorem WalkEnds.raised_iff {c c' : ProxmoxVE} {current : String}
    {reply : Nat → Except Exc Bool} {n : Nat} {hosts : List String} {r : Except Exc Bool}
    (h : WalkEnds c current (poll reply n hosts) r c') :
    (∀ e, r = .error e → ∃ k host, RaisedAt reply n hosts k host e) ∧
      ∀ k host e, RaisedAt reply n hosts k host e → r = .error e ∧ Placed c host c' := by
  constructor
  · rintro e rfl
    generalize hpoll : poll reply n hosts = ended at h
    cases h with
    | @raised host _ _ hplaced =>
        rcases poll_eq_raised_iff.mp hpoll with ⟨k, hraised⟩
        exact ⟨k, host, hraised⟩
  · intro k host e hraised
    rw [poll_eq_raised_iff.mpr ⟨k, hraised⟩] at h
    cases h with
    | raised hplaced => exact ⟨rfl, hplaced⟩

/-- The first host asked raises or is refused, if a later one raises. -/
theorem first_of_raisedAt {reply : Nat → Except Exc Bool} {n k : Nat} {host first : String}
    {hosts : List String} {e : Exc} (h : RaisedAt reply n (first :: hosts) k host e) :
    k = 0 ∧ reply n = .error e ∨
      ∃ j, k = j + 1 ∧ reply n = .ok false ∧ RaisedAt reply (n + 1) hosts j host e := by
  cases k with
  | zero => exact .inl ⟨rfl, (raisedAt_zero_iff.mp h).2⟩
  | succ k =>
      rcases raisedAt_succ_iff.mp h with ⟨hrefused, hlater⟩
      exact .inr ⟨k, rfl, hrefused, hlater⟩

/-- A failover raises exactly what the first probe that is not refused raises, with the
host that was asked in use. -/
theorem FailoverEnds.raised {c c' : ProxmoxVE} {current : String} {verifyCurrent : Bool}
    {reply : Nat → Except Exc Bool} {n : Nat} {r : Except Exc Bool}
    (h : FailoverEnds c current verifyCurrent reply n r c') :
    (∀ e, r = .error e →
      ∃ k host, RaisedAt reply n (searchOrder c current verifyCurrent) k host e) ∧
    ∀ k host e, RaisedAt reply n (searchOrder c current verifyCurrent) k host e →
      r = .error e ∧ ((verifyCurrent = true ∧ k = 0) ∧ c' = c ∨
        ¬ (verifyCurrent = true ∧ k = 0) ∧ Placed c host c') := by
  cases h with
  | stays hverify hthere =>
      subst hverify
      refine ⟨by simp, fun k host e hraised => ?_⟩
      rcases first_of_raisedAt hraised with ⟨-, hfirst⟩ | ⟨j, -, hfirst, -⟩
      · rw [hthere] at hfirst
        contradiction
      · rw [hthere] at hfirst
        contradiction
  | @interrupted e₀ hverify hraises =>
      subst hverify
      refine ⟨?_, fun k host e hraised => ?_⟩
      · rintro e ⟨rfl⟩
        exact ⟨0, current, raisedAt_zero_iff.mpr ⟨rfl, hraises⟩⟩
      · rcases first_of_raisedAt hraised with ⟨rfl, hfirst⟩ | ⟨j, -, hfirst, -⟩
        · rw [hraises] at hfirst
          exact ⟨hfirst, .inl ⟨⟨rfl, rfl⟩, rfl⟩⟩
        · rw [hraises] at hfirst
          contradiction
  | @walks k₀ _ _ hrefused hk hends =>
      subst hk
      rcases hends.raised_iff with ⟨hback, hwalk⟩
      cases verifyCurrent with
      | false =>
          refine ⟨hback, fun k host e hraised => ?_⟩
          rcases hwalk k host e hraised with ⟨hr, hplaced⟩
          exact ⟨hr, .inr ⟨by simp, hplaced⟩⟩
      | true =>
          refine ⟨fun e he => ?_, fun k host e hraised => ?_⟩
          · rcases hback e he with ⟨k, host, hraised⟩
            exact ⟨k + 1, host, raisedAt_succ_iff.mpr ⟨hrefused rfl, hraised⟩⟩
          · rcases first_of_raisedAt hraised with ⟨-, hfirst⟩ | ⟨j, rfl, -, hlater⟩
            · rw [hrefused rfl] at hfirst
              contradiction
            · rcases hwalk j host e hlater with ⟨hr, hplaced⟩
              exact ⟨hr, .inr ⟨by simp, hplaced⟩⟩

section Interrupted

variable {τ : Type} {E : Surroundings Machine Outcome} {i : τ} {n : Nat}
  {w : World τ Machine Exchange Outcome Remark} {current : String}

/-- A failover raises exactly what a probe raises; it then leaves the client where it
was exactly if the probe was that of the host in use at the start. -/
theorem failover_restores_iff (hE : Quiet E) (hcurrent : w.state.client.host = .ok current)
    (fromHost : Option String) (verifyCurrent : Bool) :
    let ending := (failover fromHost verifyCurrent).exec E i n w
    let interrupted := InterruptedAt E n w.state.client current fromHost verifyCurrent
    (∀ e, ending.result = .error e ↔ ∃ k host, interrupted k host e) ∧
    ((∀ k host e, interrupted k host e →
        ending.result = .error e ∧ SameHost w.state.client ending.world.state.client) ↔
      ∀ k host e, interrupted k host e → verifyCurrent = true ∧ k = 0 ∨
        host = current ∧ w.state.client.baseUrl = apiUrl host w.state.client.port ∧
          w.state.client.auth.baseUrl = apiUrl host w.state.client.port) := by
  intro ending interrupted
  cases hfrom : fromHost.any (· != current) with
  | true =>
      have hnever : ∀ k host e, ¬ interrupted k host e := by
        rintro k host e ⟨hnot, -⟩
        rw [hfrom] at hnot
        contradiction
      have hok : ending.result = .ok true := exec_failover_moved verifyCurrent hcurrent hfrom
      refine ⟨fun e => ?_, ?_⟩
      · rw [hok]
        simp [hnever]
      · simp [hnever]
  | false =>
      rcases exec_failover (i := i) (n := n) hE fromHost verifyCurrent hcurrent hfrom with
        ⟨r, n', w', hrun, hends, -⟩
      have hending : ending = ⟨r, n', w'⟩ := hrun
      rw [hending]
      rcases hends.raised with ⟨hback, hraised⟩
      refine ⟨fun e => ⟨fun he => ?_, ?_⟩, ⟨fun hrestores => ?_, fun hcondition => ?_⟩⟩
      · rcases hback e he with ⟨k, host, hat⟩
        exact ⟨k, host, hfrom, hat⟩
      · rintro ⟨k, host, -, hat⟩
        exact (hraised k host e hat).1
      · intro k host e hat
        rcases (hraised k host e hat.2).2 with ⟨hverified, -⟩ | ⟨-, hplaced⟩
        · exact .inl hverified
        · exact .inr ((hplaced.sameHost_iff hcurrent).mp (hrestores k host e hat).2)
      · intro k host e hat
        rcases hraised k host e hat.2 with ⟨hr, ⟨-, hsame⟩ | ⟨hcandidate, hplaced⟩⟩
        · exact ⟨hr, hsame ▸ SameHost.refl _⟩
        · refine ⟨hr, (hplaced.sameHost_iff hcurrent).mpr ?_⟩
          exact (hcondition k host e hat).resolve_left hcandidate

/-- The task is cancelled while the host in use is asked. -/
theorem failover_restores_iff_witness :
    let m : Machine := ⟨.loggedIn ["192.0.2.1", "192.0.2.2"], 0⟩
    let cancels : Surroundings Machine Outcome := ⟨fun _ m => m, fun _ => .error .cancelledError⟩
    let ending := (failover none true).exec cancels () 0 ⟨m, []⟩
    ending.result = .error .cancelledError ∧
      SameHost m.client ending.world.state.client := by
  intro m cancels ending
  have hraises : m.client.probeEnd (cancels.reply 0) = .error .cancelledError := rfl
  have hcurrent : m.client.host = .ok "192.0.2.1" := rfl
  refine (failover_restores_iff (E := cancels) (i := ()) (n := 0) (w := ⟨m, []⟩)
    (fun _ _ => rfl) hcurrent none true).2.mpr ?_ 0 "192.0.2.1"
    .cancelledError ⟨rfl, raisedAt_zero_iff.mpr ⟨rfl, hraises⟩⟩
  rintro (_ | k) host e ⟨-, hraised⟩
  · exact .inl ⟨rfl, rfl⟩
  · have hfirst := (raisedAt_succ_iff.mp hraised).1
    simp only [hraises, reduceCtorEq] at hfirst

/-- The host in use is silent, and the task is cancelled while the next one is asked:
the client stays there. -/
theorem failover_restores_counterexample :
    ¬ ∀ (E : Surroundings Machine Outcome) (m : Machine) (current : String), Quiet E →
        m.client.Coherent → m.client.host = .ok current → ∀ k host e,
        InterruptedAt E 0 m.client current none true k host e →
        ((failover none true).exec E () 0 ⟨m, []⟩).result = .error e ∧
          SameHost m.client ((failover none true).exec E () 0 ⟨m, []⟩).world.state.client := by
  intro hall
  let cancels : Surroundings Machine Outcome := {
    during := fun _ m => m
    reply := fun k => if k = 0 then .error (.timeoutError "") else .error .cancelledError }
  have hkept := (hall cancels ⟨.loggedIn ["192.0.2.1", "192.0.2.2"], 0⟩ "192.0.2.1"
    (fun _ _ => rfl) ⟨⟨"192.0.2.1", rfl, rfl⟩, fun _ => rfl⟩ rfl 1 "192.0.2.2" .cancelledError
    ⟨rfl, raisedAt_succ_iff.mpr ⟨rfl, raisedAt_zero_iff.mpr ⟨rfl, rfl⟩⟩⟩).2.host
  have hmoved : (Except.ok "192.0.2.2" : Except Exc String) = .ok "192.0.2.1" := hkept
  exact absurd (Except.ok.inj hmoved) (by decide)

end Interrupted

/-! ## Hosts that answer or not throughout -/

/-- Index and URLs agree; the URL of an API token may never have been set. -/
structure Pointed (c : ProxmoxVE) : Prop where
  coherent : c.Coherent
  authUrl : c.auth.baseUrl = c.baseUrl ∨ c.auth.hasRelogin = false ∧ c.auth.baseUrl = ""

/-- Every client is constructed so. -/
theorem init_pointed {args : ProxmoxVE.Arguments} {client : ProxmoxVE}
    (h : ProxmoxVE.init args = .ok client) : Pointed client := by
  refine ⟨(ProxmoxVE.init_represents h).1, ?_⟩
  unfold ProxmoxVE.init at h
  cases hport : ProxmoxVE.portOf args with
  | error e => simp [hport, bind, Except.bind] at h
  | ok port =>
      cases hauth : ProxmoxVE.authOf args (apiUrl (ProxmoxVE.cleanHost args.host) port) with
      | error e => simp [hport, hauth, bind, Except.bind] at h
      | ok auth =>
          simp only [hport, hauth, bind, Except.bind, pure, Except.pure, Except.ok.injEq] at h
          subst h
          unfold ProxmoxVE.authOf at hauth
          split at hauth
          · cases hauth
            exact .inr ⟨rfl, rfl⟩
          · cases hauth
            exact .inl rfl
          · cases hauth

/-- What an undisturbed failover does where each host answers or not throughout.  Where
it does not move, all is as it was, save that a vain search has pointed an API token
that had no URL yet. -/
structure CyclicSearch (c : ProxmoxVE) (current : String) (answering : String → Bool)
    (verifyCurrent : Bool)
    (ending : Ending Unit Machine Exchange Outcome Exc Remark Bool) : Prop where
  verdict : ∃ verdict, ending.result = .ok verdict ∧
    (verdict = true ↔ (∃ host ∈ c.hosts, host ≠ current ∧ answering host = true) ∧
      (verifyCurrent = true → answering current = false))
  moved : ending.result = .ok true → ∃ host,
    firstAfter answering c.hosts c.hostIndex = some host ∧
      ending.world.state.client.host = .ok host ∧
      ending.world.state.client.baseUrl = apiUrl host c.port ∧
      ending.world.state.client.auth.baseUrl = apiUrl host c.port
  stayed : ending.result = .ok false →
    ending.world.state.client.hostIndex = c.hostIndex ∧
      ending.world.state.client.baseUrl = c.baseUrl ∧
      (ending.world.state.client.auth.baseUrl = c.auth.baseUrl ∨
        (verifyCurrent = true → answering current = false) ∧ c.auth.hasRelogin = false ∧
          c.auth.baseUrl = "" ∧ ending.world.state.client.auth.baseUrl = c.baseUrl)
  asked : ending.world.sends.map (fun q => q.request.url) =
    (upToFirst answering (searchOrder c current verifyCurrent)).map (probeUrl c)
  once : (ending.world.sends.map fun q => q.request.url).Nodup

section Fixed

variable {E : Surroundings Machine Outcome} {n : Nat} {m : Machine} {current : String}
  {answering : String → Bool}

/-- Where each host answers or not throughout, so does each probe. -/
theorem reply_of_fixed (hheaders : m.client.auth.headersError = none) {hosts : List String}
    {n' : Nat} {w' : World Unit Machine Exchange Outcome Remark}
    (hprobed : ProbedInOrder m.client E hosts n n' ⟨m, []⟩ w')
    (hfixed : AnswersFixed m.client answering w'.history) {k : Nat} {host : String}
    (hk : hosts[k]? = some host) :
    m.client.probeEnd (E.reply (n + k)) = .ok (answering host) := by
  rw [ProxmoxVE.probeEnd_eq hheaders]
  have hasked : (probeUrl m.client host, E.reply (n + k)) ∈ w'.answered.map probeOf := by
    rw [hprobed.answered]
    refine List.mem_append_right _ (List.mem_map.mpr ⟨(host, n + k), ?_, rfl⟩)
    rw [List.mem_iff_getElem?]
    exact ⟨k, by simp [List.getElem?_zipIdx, hk]⟩
  rcases List.mem_map.mp hasked with ⟨⟨q, r⟩, hmem, hprobe⟩
  rcases World.mem_answered.mp hmem with ⟨j, hgot⟩
  have hurl : q.request.url = probeUrl m.client host := congrArg Prod.fst hprobe
  have hreply : r = E.reply (n + k) := congrArg Prod.snd hprobe
  rw [← hreply]
  exact hfixed j q r host hgot hurl

/-- The hosts of the search order are each named once. -/
theorem nodup_searchOrder {c : ProxmoxVE} (hhosts : c.hosts.Nodup)
    (hcurrent : c.hosts[c.hostIndex]? = some current) (verifyCurrent : Bool) :
    (searchOrder c current verifyCurrent).Nodup := by
  rcases List.getElem?_eq_some_iff.mp hcurrent with ⟨hlt, hget⟩
  have hall : (current :: cyclicAfter c.hosts c.hostIndex).Nodup := by
    rw [← hget, ← rotate_eq_cons hlt]
    exact List.nodup_rotate.mpr hhosts
  cases verifyCurrent with
  | true => exact hall
  | false => exact (List.nodup_cons.mp hall).2

/-- How a failover ends where each host answers or not throughout: the host in use
answers, or no other does, or the first other that does is in use. -/
theorem FailoverEnds.fixed {c c' : ProxmoxVE} {verifyCurrent : Bool}
    {reply : Nat → Except Exc Bool} {r : Except Exc Bool}
    (h : FailoverEnds c current verifyCurrent reply n r c')
    (hreply : ∀ k host, (polled reply n (searchOrder c current verifyCurrent))[k]? = some host →
      reply (n + k) = .ok (answering host)) :
    (verifyCurrent = true ∧ answering current = true ∧ r = .ok false ∧ c' = c) ∨
      (verifyCurrent = true → answering current = false) ∧
        (firstAfter answering c.hosts c.hostIndex = none ∧ r = .ok false ∧
            Placed c current c' ∧ c'.hostIndex = c.hostIndex ∨
          ∃ host, firstAfter answering c.hosts c.hostIndex = some host ∧ r = .ok true ∧
            Placed c host c') := by
  have hcurrent : verifyCurrent = true → reply n = .ok (answering current) := by
    rintro rfl
    exact hreply 0 current (by rw [searchOrder, if_pos rfl, polled]; rfl)
  cases h with
  | stays hverify hthere =>
      exact .inl ⟨hverify, Except.ok.inj ((hcurrent hverify).symm.trans hthere), rfl, rfl⟩
  | interrupted hverify hraises =>
      have hboth := (hcurrent hverify).symm.trans hraises
      contradiction
  | @walks k₀ _ _ hrefused hk hends =>
      refine .inr ⟨fun hverify => ?_, ?_⟩
      · exact Except.ok.inj ((hcurrent hverify).symm.trans (hrefused hverify))
      · have hpoll : poll reply k₀ (cyclicAfter c.hosts c.hostIndex) =
            (firstAfter answering c.hosts c.hostIndex).elim .vain .accepted := by
          refine poll_of_fixed fun k host hk' => ?_
          cases verifyCurrent with
          | false =>
              subst hk
              exact hreply k host hk'
          | true =>
              subst hk
              have hlater := hreply (k + 1) host (by
                rw [searchOrder, if_pos rfl, polled_cons_refused (hrefused rfl)]
                exact hk')
              have hshift : n + 1 + k = n + (k + 1) := by omega
              rw [if_pos rfl, hshift]
              exact hlater
        rw [hpoll] at hends
        rcases hfound : firstAfter answering c.hosts c.hostIndex with _ | host
        · rw [hfound] at hends
          cases hends with
          | vain hplaced hindex => exact .inl ⟨rfl, rfl, hplaced, hindex⟩
        · rw [hfound] at hends
          cases hends with
          | accepted hplaced => exact .inr ⟨host, rfl, rfl, hplaced⟩

/-- Where each host answers or not throughout, an undisturbed failover is the search for
the first that answers, in cyclic order. -/
theorem failover_finds (hE : Quiet E) (verifyCurrent : Bool) (hpointed : Pointed m.client)
    (hhosts : m.client.hosts.Nodup) (hcurrent : m.client.host = .ok current)
    (hheaders : m.client.auth.headersError = none)
    (hfixed : AnswersFixed m.client answering
      ((failover none verifyCurrent).exec E () n ⟨m, []⟩).world.history) :
    CyclicSearch m.client current answering verifyCurrent
      ((failover none verifyCurrent).exec E () n ⟨m, []⟩) := by
  have hget := ProxmoxVE.host_eq_ok_iff.mp hcurrent
  rcases List.getElem?_eq_some_iff.mp hget with ⟨hlt, hat⟩
  have hurl : m.client.baseUrl = apiUrl current m.client.port := by
    rcases hpointed.coherent.host with ⟨host, hhost, hurl⟩
    rw [hget] at hhost
    cases hhost
    exact hurl
  have hsends := Co.exec_sends_eq (p := failover none verifyCurrent) (E := E) (i := ()) (n := n)
    (w := ⟨m, []⟩) rfl
  rcases exec_failover (i := ()) (n := n) (w := ⟨m, []⟩) hE none verifyCurrent hcurrent rfl with
    ⟨r, n', w', hrun, hends, hprobed⟩
  have hprobed := hprobed hheaders hurl
  rw [hrun] at hfixed hsends ⊢
  have hreply : ∀ k host,
      (polled (fun k => m.client.probeEnd (E.reply k)) n
        (searchOrder m.client current verifyCurrent))[k]? = some host →
      m.client.probeEnd (E.reply (n + k)) = .ok (answering host) :=
    fun _ _ => reply_of_fixed hheaders hprobed hfixed
  have hasked : w'.sends.map (fun q => q.request.url) =
      (upToFirst answering (searchOrder m.client current verifyCurrent)).map
        (probeUrl m.client) := by
    rw [← polled_of_fixed hreply, hsends, List.map_map]
    exact hprobed.urls
  have hnodup : (w'.sends.map fun q => q.request.url).Nodup := by
    rw [hasked]
    refine List.Nodup.map (fun a b hab => addressOf_injective hab) ?_
    exact (nodup_searchOrder hhosts hget verifyCurrent).sublist (prefix_upToFirst _ _).sublist
  have hothers : ∀ host, host ∈ cyclicAfter m.client.hosts m.client.hostIndex ↔
      host ∈ m.client.hosts ∧ host ≠ current := by
    intro host
    rw [mem_cyclicAfter hhosts hlt, hat]
  rcases hends.fixed hreply with
    ⟨hverify, hanswers, rfl, hsame⟩ | ⟨hsilent, ⟨hnone, rfl, hplaced, hindex⟩ |
      ⟨host, hfound, rfl, hplaced⟩⟩
  · refine ⟨⟨false, rfl, ?_⟩, by simp, fun _ => ?_, hasked, hnodup⟩
    · simp [hanswers, hverify]
    · exact ⟨congrArg _ hsame, congrArg _ hsame, .inl (congrArg (·.auth.baseUrl) hsame)⟩
  · refine ⟨⟨false, rfl, ?_⟩, by simp, fun _ => ⟨hindex, hplaced.url.trans hurl.symm, ?_⟩,
      hasked, hnodup⟩
    · simp only [Bool.false_eq_true, false_iff, not_and]
      rintro ⟨host, hmem, hne, hanswers⟩
      have hrefuses := List.find?_eq_none.mp hnone host ((hothers host).mpr ⟨hmem, hne⟩)
      exact absurd hanswers hrefuses
    · rcases hpointed.authUrl with hauth | ⟨htoken, hempty⟩
      · exact .inl (hplaced.authUrl.trans (hurl.symm.trans hauth.symm))
      · exact .inr ⟨hsilent, htoken, hempty, hplaced.authUrl.trans hurl.symm⟩
  · have hmem := (hothers host).mp (List.mem_of_find?_eq_some hfound)
    refine ⟨⟨true, rfl, ?_⟩, fun _ => ⟨host, hfound, hplaced.inUse, hplaced.url, hplaced.authUrl⟩,
      by simp, hasked, hnodup⟩
    simp only [true_iff]
    exact ⟨⟨host, hmem.1, hmem.2, List.find?_some hfound⟩, hsilent⟩

/-- Around the end of the list: the third host is silent and the first answers. -/
theorem failover_finds_witness :
    CyclicSearch (Machine.using ["192.0.2.1", "192.0.2.2", "192.0.2.3"] 1 "192.0.2.2").client
      "192.0.2.2" (· == "192.0.2.1") false
      ((failover none false).exec ⟨fun _ m => m, fun k => replyOf (k == 1)⟩ () 0
        ⟨.using ["192.0.2.1", "192.0.2.2", "192.0.2.3"] 1 "192.0.2.2", []⟩) := by
  have hgot : ∀ j q r, .got j q r ∈ ((failover none false).exec
        ⟨fun _ m => m, fun k => replyOf (k == 1)⟩ () 0
        ⟨.using ["192.0.2.1", "192.0.2.2", "192.0.2.3"] 1 "192.0.2.2", []⟩).world.history →
      q.request.url = addressOf (apiUrl "192.0.2.1" defaultPvePort) "version" ∧
          r = replyOf true ∨
        q.request.url = addressOf (apiUrl "192.0.2.3" defaultPvePort) "version" ∧
          r = replyOf false := by
    intro j q r hgot
    have hgot : Event.got j q r ∈ ([_, _, _, _, _, _, _, _] : List _) := hgot
    simp only [List.mem_cons, List.not_mem_nil, or_false, reduceCtorEq, false_or,
      Event.got.injEq] at hgot
    rcases hgot with ⟨-, rfl, rfl⟩ | ⟨-, rfl, rfl⟩
    · exact .inl ⟨rfl, rfl⟩
    · exact .inr ⟨rfl, rfl⟩
  refine failover_finds (fun _ _ => rfl) false
    ⟨ProxmoxVE.placedAt_coherent rfl, .inl rfl⟩ (by decide +kernel) rfl rfl ?_
  intro j q r host hin hurl
  rcases hgot j q r hin with ⟨hhere, rfl⟩ | ⟨hhere, rfl⟩
  · rw [← addressOf_injective (hhere.symm.trans hurl)]
    rfl
  · rw [← addressOf_injective (hhere.symm.trans hurl)]
    rfl

/-- An API token that was never pointed at a host is, by a vain search; one of a service
that is not known cannot ask anybody. -/
theorem failover_finds_counterexample :
    let finds : Machine → Prop := fun m =>
      ∀ (E : Surroundings Machine Outcome) (current : String) (answering : String → Bool)
        (verifyCurrent : Bool), Quiet E → Pointed m.client → m.client.hosts.Nodup →
        m.client.host = .ok current →
        AnswersFixed m.client answering
          ((failover none verifyCurrent).exec E () 0 ⟨m, []⟩).world.history →
        ∃ verdict, ((failover none verifyCurrent).exec E () 0 ⟨m, []⟩).result = .ok verdict ∧
          (verdict = false → ((failover none verifyCurrent).exec E () 0
            ⟨m, []⟩).world.state.client.auth.baseUrl = m.client.auth.baseUrl)
    let withToken : String → Machine := fun service =>
      ⟨{ ProxmoxVE.loggedIn ["192.0.2.1"] with
          auth := .token {
            username := "root@pam", tokenName := "reader", tokenValue := "secret"
            service := service } }, 0⟩
    ¬ finds (withToken "PVE") ∧ ¬ finds (withToken "PBS") := by
  intro finds withToken
  let E : Surroundings Machine Outcome := ⟨fun _ m => m, fun _ => replyOf false⟩
  have hpointed : ∀ service, Pointed (withToken service).client :=
    fun service => ⟨⟨⟨"192.0.2.1", rfl, rfl⟩, fun h => Bool.noConfusion h⟩, .inr ⟨rfl, rfl⟩⟩
  constructor
  · intro hall
    rcases hall E "192.0.2.1" (fun _ => false) false (fun _ _ => rfl) (hpointed "PVE")
      (by decide +kernel) rfl (by
        intro j q r host hgot
        have hgot : Event.got j q r ∈ ([_, _, _, _] : List _) := hgot
        simp at hgot) with ⟨verdict, hverdict, hkept⟩
    have hfalse : verdict = false := (Except.ok.inj hverdict).symm
    exact absurd (hkept hfalse) (by decide +kernel)
  · intro hall
    rcases hall E "192.0.2.1" (fun _ => false) true (fun _ _ => rfl) (hpointed "PBS")
      (by decide +kernel) rfl (by
        intro j q r host hgot
        have hgot : Event.got j q r ∈ ([_, _, _] : List _) := hgot
        simp at hgot) with ⟨verdict, hverdict, -⟩
    contradiction

end Fixed

end AioProxmox
