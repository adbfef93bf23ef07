import AioProxmox.Client.Credentials
import AioProxmox.Client.RequestRuns
import AioProxmox.Collections.Unions

/-!
# Client - the parameters of a request

What becomes of the two dictionaries a caller hands to {lit}`request`: a reading or deleting
request puts both into its query, any other request puts {lit}`json_data` into its body and
does not look at {lit}`params`.  A query that the caller writes into the path is part of the
path.

Main results:

- Theorem {lit}`sent_built`: all that a request sends for its caller is built from what the
  caller handed over, whatever happens in between.
- Theorem {lit}`delivers_iff`: when the parameters sent are those supplied.
-/

namespace AioProxmox

open Coroutine Collections

/-! ## Dictionaries put together -/

/-- {lit}`d[key] = value` stores in a table. -/
theorem Dict.insert_eq_store (d : Dict) (key : String) (value : Json) :
    d.insert key value = store d key value := by
  induction d with
  | nil => rfl
  | cons entry rest ih =>
      rw [Dict.insert, store, ih]

/-- {lit}`a | b` updates a table. -/
theorem Dict.merge_eq_update (a b : Dict) : a.merge b = update a b := by
  unfold merge update
  simp only [insert_eq_store]

/-- Dictionaries without a common key. -/
theorem Dict.merge_eq_append {a b : Dict} (h : ((a ++ b).map Prod.fst).Nodup) :
    a.merge b = a ++ b := by
  rw [merge_eq_update, update_eq_append h]

/-! ## What is supplied and what is sent -/

/-- The two dictionaries handed to {lit}`request`, without a common key. -/
structure RequestParameters where
  jsonData : Option Dict
  params : Option Dict
  distinct : ((params.getD [] ++ jsonData.getD []).map Prod.fst).Nodup

/-- All that is in them. -/
def RequestParameters.supplied (p : RequestParameters) : Dict :=
  p.params.getD [] ++ p.jsonData.getD []

/-- No parameter is supplied twice. -/
theorem RequestParameters.distinct_supplied (p : RequestParameters) :
    (p.supplied.map Prod.fst).Nodup :=
  p.distinct

/-- A value as a query carries it: a flag as a number, anything else as its string. -/
def queryValue : Json → QueryValue
  | .bool b => .int (if b then 1 else 0)
  | v => .text v

/-- The parameters a request sends are those supplied: each is in the query or in the body
with its value, nothing else is there, no key twice, and there is no form. -/
structure Delivers (supplied : Dict) (request : HttpRequest) : Prop where
  kept : ∀ key value, (key, value) ∈ supplied →
    (key, queryValue value) ∈ request.query.getD [] ∨ (key, value) ∈ request.json.getD []
  queried : ∀ key sent, (key, sent) ∈ request.query.getD [] →
    ∃ value, (key, value) ∈ supplied ∧ sent = queryValue value
  posted : ∀ key value, (key, value) ∈ request.json.getD [] → (key, value) ∈ supplied
  once : ((request.query.getD []).map Prod.fst ++ (request.json.getD []).map Prod.fst).Nodup
  formless : request.data = none

/-- The query is made key by key. -/
theorem queryOf_eq (params : Dict) :
    queryOf params = params.map fun kv => (kv.1, queryValue kv.2) := by
  unfold queryOf
  apply List.map_congr_left
  rintro ⟨key, value⟩ -
  cases value <;> rfl

/-- The query has the keys of the parameters. -/
theorem keys_queryOf (params : Dict) : (queryOf params).map Prod.fst = params.map Prod.fst := by
  rw [queryOf_eq, List.map_map]
  rfl

/-! ## One attempt -/

/-- An attempt was built from what the caller handed over, for some state of the client. -/
def BuiltFrom (method path : String) (jsonData params : Option Dict) (r : HttpRequest) : Prop :=
  ∃ client, buildRequest client method path jsonData params none = .ok r

section Built

variable {method path : String} {jsonData params : Option Dict} {r : HttpRequest}

/-- The three places for parameters in a request that was built. -/
theorem BuiltFrom.places (h : BuiltFrom method path jsonData params r) :
    r.query = requestQuery method jsonData params ∧ r.json = requestJson method jsonData ∧
      r.data = none := by
  rcases h with ⟨client, hbuilt⟩
  unfold buildRequest at hbuilt
  cases hheaders : client.auth.getHeaders with
  | error e =>
      rw [hheaders] at hbuilt
      contradiction
  | ok headers =>
      rw [hheaders] at hbuilt
      cases hbuilt
      exact ⟨rfl, rfl, rfl⟩

/-- A reading or deleting request has all in its query. -/
theorem BuiltFrom.query_eq {p : RequestParameters}
    (h : BuiltFrom method path p.jsonData p.params r) (hmethod : sendsQuery method = true) :
    r.query.getD [] = queryOf p.supplied ∧ r.json = none := by
  rcases h.places with ⟨hquery, hjson, -⟩
  rw [hquery, hjson]
  unfold requestQuery requestJson
  rw [if_pos hmethod, if_pos hmethod, Dict.merge_eq_append p.distinct]
  refine ⟨?_, rfl⟩
  change (if p.supplied.isEmpty then none else some (queryOf p.supplied)).getD [] = _
  cases p.supplied <;> rfl

/-- Any other request has {lit}`json_data` in its body. -/
theorem BuiltFrom.json_eq (h : BuiltFrom method path jsonData params r)
    (hmethod : sendsQuery method = false) :
    r.query = none ∧ r.json.getD [] = jsonData.getD [] := by
  rcases h.places with ⟨hquery, hjson, -⟩
  rw [hquery, hjson]
  unfold requestQuery requestJson
  simp only [hmethod, Bool.false_eq_true, if_false, true_and]
  cases hdata : jsonData.getD [] with
  | nil => rfl
  | cons entry rest => simpa using hdata

/-- What is sent in a query alone. -/
theorem delivers_of_query {p : RequestParameters} (hquery : r.query.getD [] = queryOf p.supplied)
    (hjson : r.json = none) (hdata : r.data = none) : Delivers p.supplied r := by
  refine ⟨?_, ?_, ?_, ?_, hdata⟩
  · intro key value hmem
    left
    rw [hquery, queryOf_eq]
    exact List.mem_map.mpr ⟨_, hmem, rfl⟩
  · intro key sent hmem
    rw [hquery, queryOf_eq] at hmem
    rcases List.mem_map.mp hmem with ⟨⟨key', value⟩, hsupplied, heq⟩
    cases heq
    exact ⟨value, hsupplied, rfl⟩
  · intro key value hmem
    rw [hjson] at hmem
    contradiction
  · rw [hquery, hjson, keys_queryOf]
    simpa using p.distinct_supplied

/-- What is sent in a body alone. -/
theorem delivers_of_json {supplied : Dict} (hdistinct : (supplied.map Prod.fst).Nodup)
    (hquery : r.query = none) (hjson : r.json.getD [] = supplied) (hdata : r.data = none) :
    Delivers supplied r := by
  refine ⟨?_, ?_, ?_, ?_, hdata⟩
  · intro key value hmem
    right
    rw [hjson]
    exact hmem
  · intro key sent hmem
    rw [hquery] at hmem
    contradiction
  · intro key value hmem
    rw [← hjson]
    exact hmem
  · rw [hquery, hjson]
    exact hdistinct

/-- One attempt delivers all unless it has a body and {lit}`params` were supplied. -/
theorem BuiltFrom.delivers_supplied_iff {p : RequestParameters}
    (h : BuiltFrom method path p.jsonData p.params r) :
    Delivers p.supplied r ↔ sendsQuery method = true ∨ p.params.getD [] = [] := by
  have hdata := h.places.2.2
  cases hmethod : sendsQuery method with
  | true =>
      rcases h.query_eq hmethod with ⟨hquery, hjson⟩
      simp only [true_or, iff_true]
      exact delivers_of_query hquery hjson hdata
  | false =>
      rcases h.json_eq hmethod with ⟨hquery, hjson⟩
      simp only [Bool.false_eq_true, false_or]
      constructor
      · intro hdelivers
        by_contra hparams
        rcases List.exists_mem_of_ne_nil _ hparams with ⟨⟨key, value⟩, hmem⟩
        -- One of the params could only be in the body, and there is only the rest.
        rcases hdelivers.kept key value (List.mem_append_left _ hmem) with hsent | hsent
        · rw [hquery] at hsent
          contradiction
        · rw [hjson] at hsent
          have hdistinct := p.distinct
          rw [List.map_append, List.nodup_append] at hdistinct
          exact hdistinct.2.2 key (List.mem_map_of_mem hmem) key (List.mem_map_of_mem hsent) rfl
      · intro hparams
        have hsupplied : p.supplied = p.jsonData.getD [] := by
          rw [RequestParameters.supplied, hparams, List.nil_append]
        rw [hsupplied]
        refine delivers_of_json ?_ hquery hjson hdata
        rw [← hsupplied]
        exact p.distinct_supplied

end Built

/-! ## Whole runs -/

section Runs

variable {τ : Type} {i : τ} (method path : String) (jsonData params : Option Dict)

/-- Events of a request, what it sends for its caller built from what the caller supplied. -/
def ofCaller : Event τ Exchange Outcome Remark → Prop
  | .sent _ q => q.purpose = .request → BuiltFrom method path jsonData params q.request
  | _ => True

variable {method path jsonData params}

/-- The events of a login send no request of the caller. -/
theorem ofCaller_of_login {e : Event τ Exchange Outcome Remark} (h : ofLogin e) :
    ofCaller method path jsonData params e := by
  cases e with
  | sent j q =>
      intro hrequest
      rcases h with hpurpose | ⟨password, hpurpose⟩
      · rw [hrequest] at hpurpose
        contradiction
      · rw [hrequest] at hpurpose
        contradiction
  | _ => trivial

/-- The events of a failover send no request of the caller. -/
theorem ofCaller_of_failover {e : Event τ Exchange Outcome Remark} (h : ofFailover e) :
    ofCaller method path jsonData params e := by
  cases e with
  | sent j q =>
      intro hrequest
      rcases h with ⟨candidate, hpurpose⟩
      rw [hrequest] at hpurpose
      contradiction
  | _ => trivial

/-- A send leaves what is built of the caller's arguments. -/
theorem send_leaves_built :
    Co.Leaves i (ofCaller method path jsonData params) (send method path jsonData params) := by
  apply attempt_leaves_built
  intro client request hbuilt
  constructor
  · intro _
    exact ⟨client, hbuilt⟩
  · intro r
    exact trivial

/-- A renewal sends no request of the caller. -/
theorem renewalStage_leaves_built :
    Co.Leaves i (ofCaller method path jsonData params) renewalStage := by
  refine renewalStage_leaves.mono fun e he => ?_
  rcases he with hlogin | hfailover
  · exact ofCaller_of_login hlogin
  · exact ofCaller_of_failover hfailover

/-- A recovery sends what is built of the same arguments. -/
theorem recover_leaves_built (hostBefore : String) (err : Exc) :
    Co.Leaves i (ofCaller method path jsonData params)
      (recover method path jsonData params hostBefore err) := by
  unfold recover
  split
  · refine Co.Leaves.bind (fun _ => trivial) fun client => ?_
    split_ifs
    · exact Co.Leaves.throw _
    · exact (relogin_leaves.mono fun _ => ofCaller_of_login).bind fun _ => send_leaves_built
  · split_ifs
    · refine ((failoverIfPeers_leaves _ _).mono fun _ => ofCaller_of_failover).bind fun moved => ?_
      split_ifs
      · exact send_leaves_built
      · exact Co.Leaves.throw _
    · exact Co.Leaves.throw _

/-- A whole request leaves nothing but what is built of its arguments. -/
theorem request_leaves_built :
    Co.Leaves i (ofCaller method path jsonData params)
      (request method path jsonData params) := by
  rw [request_eq]
  exact renewalStage_leaves_built.bind fun _ => currentHost_leaves.bind fun hostBefore =>
    send_leaves_built.tryCatch fun err => recover_leaves_built hostBefore err

/-- All that a request sends for its caller is built from what the caller supplied, on the
first attempt and on a repeated one. -/
theorem sent_built {E : Surroundings Machine Outcome} {n : Nat} {m : Machine} {q : Exchange}
    (hsent : q ∈ ((request method path jsonData params).exec E i n ⟨m, []⟩).world.sends)
    (hrequest : q.purpose = .request) : BuiltFrom method path jsonData params q.request := by
  rcases request_leaves_built.sent hsent with ⟨j, hbuilt⟩
  exact hbuilt hrequest

/-- Once the ticket is renewed and where the headers can be built, something is sent. -/
theorem exists_sent {E : Surroundings Machine Outcome} {n n₁ : Nat} {m : Machine}
    {w₁ : World τ Machine Exchange Outcome Remark} {host : String}
    (hrenew : renewalStage.exec E i n ⟨m, []⟩ = ⟨.ok (), n₁, w₁⟩)
    (hhost : w₁.state.client.host = .ok host)
    (hheaders : w₁.state.client.auth.headersError = none) :
    ∃ q ∈ ((request method path jsonData params).exec E i n ⟨m, []⟩).world.sends,
      q.purpose = .request := by
  rcases exec_attempt (E := E) (i := i) (n := n₁) .request method path jsonData params none
    hheaders with ⟨q, hpurpose, -, hrun⟩
  have hsent : .sent i q ∈
      ((send method path jsonData params).exec E i n₁ w₁).world.history := by
    unfold send
    rw [hrun]
    simp [exchanged]
  refine ⟨q, World.mem_sends.mpr ⟨i, ?_⟩, hpurpose⟩
  rw [exec_request_renewed hrenew hhost]
  exact Co.mem_exec_tryCatch hsent

end Runs

/-- Whatever happens in a run, a request sent for the caller carries just what was supplied
exactly if it is a reading or deleting one or there are no {lit}`params`. -/
theorem delivers_iff {τ : Type} (E : Surroundings Machine Outcome) (i : τ) (n : Nat)
    (m : Machine) (method path : String) (p : RequestParameters) {q : Exchange}
    (hsent : q ∈ ((request method path p.jsonData p.params).exec E i n ⟨m, []⟩).world.sends)
    (hrequest : q.purpose = .request) :
    Delivers p.supplied q.request ↔ sendsQuery method = true ∨ p.params.getD [] = [] := by
  have hbuilt : BuiltFrom method path p.jsonData p.params q.request :=
    sent_built hsent hrequest
  exact hbuilt.delivers_supplied_iff

/-- A host that answers everything, and its only client. -/
abbrev answering : Surroundings Machine Outcome where
  during _ m := m
  reply _ := .ok { status := 200, json := .ok (.obj [("data", .null)]) }

/-- A client with a fresh ticket has nothing to renew. -/
theorem renewalStage_answering :
    renewalStage.exec answering () 0 ⟨⟨.loggedIn ["192.0.2.1"], 0⟩, []⟩ =
      ⟨.ok (), 0, ⟨⟨.loggedIn ["192.0.2.1"], 0⟩, []⟩⟩ :=
  Co.exec_tryCatch_ok (exec_checkAndRefresh_loggedIn _ _) _

/-- Parameters of each kind, one of them none, sent to a client that answers. -/
theorem delivers_witness :
    let p : RequestParameters :=
      ⟨some [("limit", .int 50)], some [("errors", .bool true)], by decide⟩
    ∃ q ∈ ((request "get" "nodes/pve1/tasks" p.jsonData p.params).exec answering () 0
      ⟨⟨.loggedIn ["192.0.2.1"], 0⟩, []⟩).world.sends, Delivers p.supplied q.request := by
  intro p
  rcases exists_sent renewalStage_answering rfl rfl with ⟨q, hsent, hrequest⟩
  refine ⟨q, hsent, ?_⟩
  exact (delivers_iff answering () 0 _ _ _ p hsent hrequest).mpr (.inl (by decide +kernel))

/-- What is handed to a post as {lit}`params` is not sent. -/
theorem delivers_counterexample :
    let p : RequestParameters := ⟨none, some [("force", .bool true)], by decide⟩
    ∃ q ∈ ((request "POST" "nodes/pve1/startall" p.jsonData p.params).exec answering () 0
      ⟨⟨.loggedIn ["192.0.2.1"], 0⟩, []⟩).world.sends,
      q.purpose = .request ∧ ¬ Delivers p.supplied q.request := by
  intro p
  rcases exists_sent renewalStage_answering rfl rfl with ⟨q, hsent, hrequest⟩
  refine ⟨q, hsent, hrequest, ?_⟩
  have hbuilt : BuiltFrom "POST" "nodes/pve1/startall" p.jsonData p.params q.request :=
    sent_built hsent hrequest
  rw [hbuilt.delivers_supplied_iff]
  decide +kernel

end AioProxmox
