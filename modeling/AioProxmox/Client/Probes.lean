import AioProxmox.Client.Heard
import AioProxmox.Client.Search

/-!
# Client - what counts as an answer to a probe

The probe reads the answer to {lit}`version` like that to any request, so what the HTTP
library raises when it reads the body decides with the status whether the host is there.
Of that library only the reading of a body is a parameter.

Main results:

- Definition {lit}`ProbeReply.outcome`: an answer of any status, type and body, and silence.
- Theorem {lit}`exec_answers_iff`: which answers count as answers.
- Theorem {lit}`heard_outcome_iff`: which answers the probe has a clause for.
-/

namespace AioProxmox

open Coroutine

/-! ## Answers and silence -/

/-- What aiohttp makes of the body of an answer: whether its content type says JSON, its
text and the JSON in it, both none where reading raises a {lit}`ValueError`. -/
structure BodyReader (β : Type) where
  isJson : String → Bool
  decode : β → Option String
  loads : β → Option Json

/-- What comes back from a probe: an answer with any status, content type and body; an
answer whose body does not arrive; or nothing. -/
inductive ProbeReply (β : Type) where
  | answer (status : Nat) (reason : Option String) (contentType : String) (body : β)
  | cutOff (status : Nat) (reason : Option String) (err : Exc) (lost : err.isLostHost = true)
  | silence (err : Exc) (lost : err.isLostHost = true)

/-- {lit}`response.text()`. -/
def BodyReader.text {β : Type} (reader : BodyReader β) (body : β) : Except Exc String :=
  match reader.decode body with
  | some text => .ok text
  | none => .error (.valueError "body cannot be decoded")

/-- {lit}`response.json()`: {lit}`ContentTypeError` where the type is not JSON. -/
def BodyReader.json {β : Type} (reader : BodyReader β) (contentType : String) (body : β) :
    Except Exc Json :=
  if reader.isJson contentType then
    match reader.loads body with
    | some value => .ok value
    | none => .error (.valueError "body is not JSON")
  else .error (.clientError "Attempt to decode JSON with unexpected mimetype")

/-- How the exchange ends. -/
def ProbeReply.outcome {β : Type} (reader : BodyReader β) : ProbeReply β → Outcome
  | .answer status reason contentType body =>
      .ok { status, reason, text := reader.text body, json := reader.json contentType body }
  | .cutOff status reason err _ =>
      .ok { status, reason, text := .error err, json := .error err }
  | .silence err _ => .error err

/-- The host has answered. -/
def ProbeReply.isAnswer {β : Type} : ProbeReply β → Bool
  | .answer .. => true
  | .cutOff .. | .silence .. => false

/-- The body of an answer can be read: as JSON where the status is one of success, as text
where it is any other. -/
def ProbeReply.Readable {β : Type} (reader : BodyReader β) : ProbeReply β → Prop
  | .answer status _ contentType body =>
      if status ∈ [200, 201] then
        reader.isJson contentType = true ∧ (reader.loads body).isSome = true
      else (reader.decode body).isSome = true
  | .cutOff .. | .silence .. => True

/-- Reading the body raises a {lit}`ValueError`: it is JSON by its type and no JSON, or it is
the page of a refusal and cannot be decoded. -/
def ProbeReply.Malformed {β : Type} (reader : BodyReader β) : ProbeReply β → Prop
  | .answer status _ contentType body =>
      if status ∈ [200, 201] then
        reader.isJson contentType = true ∧ reader.loads body = none
      else reader.decode body = none
  | .cutOff .. | .silence .. => False

/-! ## The verdict -/

section Verdict

variable {β : Type} (reader : BodyReader β)

/-- What keeps the client from a host is taken for silence. -/
theorem verdictOf_lostBody {status : Nat} {reason : Option String} {err : Exc}
    (h : err.isLostHost = true) :
    verdictOf (.ok { status, reason, text := .error err, json := .error err }) = .ok false := by
  have hread : readResponse "version" { status, reason, text := .error err, json := .error err } =
      .error err := by
    unfold readResponse
    split_ifs <;> rfl
  rw [← verdictOf_lost h]
  simp only [verdictOf, bind, Except.bind, hread]

/-- An answer of success counts exactly if its body can be read as JSON. -/
theorem verdictOf_success {status : Nat} (reason : Option String) (contentType : String)
    (body : β) (hstatus : status ∈ [200, 201]) :
    verdictOf ((ProbeReply.answer status reason contentType body).outcome reader) = .ok true ↔
      reader.isJson contentType = true ∧ (reader.loads body).isSome = true := by
  simp only [verdictOf, ProbeReply.outcome, bind, Except.bind, readResponse, hstatus, if_true,
    BodyReader.json]
  by_cases htype : reader.isJson contentType = true
  · cases hloads : reader.loads body with
    | none =>
        simp [htype, Exc.isProxmoxAPIError, Exc.isProxmoxError, Exc.isClientError,
          Exc.isTimeoutError]
    | some value => cases value <;> simp [htype, pure, Except.pure]
  · simp [htype, Exc.isProxmoxAPIError, Exc.isClientError]

/-- Any other answer counts exactly if its body can be read as text. -/
theorem verdictOf_refusal {status : Nat} (reason : Option String) (contentType : String)
    (body : β) (hstatus : status ∉ [200, 201]) :
    verdictOf ((ProbeReply.answer status reason contentType body).outcome reader) = .ok true ↔
      (reader.decode body).isSome = true := by
  simp only [verdictOf, ProbeReply.outcome, bind, Except.bind, readResponse, hstatus, if_false,
    BodyReader.text]
  cases hdecode : reader.decode body with
  | none =>
      simp [Exc.isProxmoxAPIError, Exc.isProxmoxError, Exc.isClientError, Exc.isTimeoutError]
  | some text => simp [throw, throwThe, MonadExceptOf.throw, Exc.isProxmoxAPIError]

/-- The verdict on a reply tells answers from silence exactly if the reply can be read. -/
theorem verdictOf_outcome_iff (reply : ProbeReply β) :
    verdictOf (reply.outcome reader) = .ok reply.isAnswer ↔ reply.Readable reader := by
  cases reply with
  | answer status reason contentType body =>
      by_cases hstatus : status ∈ [200, 201]
      · simp only [ProbeReply.Readable, hstatus, if_true]
        exact verdictOf_success reader reason contentType body hstatus
      · simp only [ProbeReply.Readable, hstatus, if_false]
        exact verdictOf_refusal reader reason contentType body hstatus
  | cutOff status reason err lost => exact iff_of_true (verdictOf_lostBody lost) trivial
  | silence err lost => exact iff_of_true (verdictOf_lost lost) trivial

/-- A lost host is heard, whether it is lost before the headers or after them. -/
theorem heard_lost {reply : Outcome} {err : Exc} (h : err.isLostHost = true)
    (hread : (reply >>= readResponse "version") = .error err) : Heard reply := by
  intro e he
  rw [hread] at he
  cases he
  rw [Bool.or_assoc, Exc.isLostHost_handled h, Bool.or_true]

/-- A reply is heard exactly if reading its body raises no {lit}`ValueError`. -/
theorem heard_outcome_iff (reply : ProbeReply β) :
    Heard (reply.outcome reader) ↔ ¬ reply.Malformed reader := by
  cases reply with
  | answer status reason contentType body =>
      by_cases hstatus : status ∈ [200, 201]
      · simp only [Heard, ProbeReply.Malformed, ProbeReply.outcome, bind, Except.bind, readResponse,
          hstatus, if_true, BodyReader.json]
        by_cases htype : reader.isJson contentType = true
        · cases hloads : reader.loads body with
          | none => simp [htype, Exc.isProxmoxError, Exc.isClientError, Exc.isTimeoutError]
          | some value => cases value <;> simp [htype, pure, Except.pure]
        · simp [htype, Exc.isClientError]
      · simp only [Heard, ProbeReply.Malformed, ProbeReply.outcome, bind, Except.bind, readResponse,
          hstatus, if_false, BodyReader.text]
        cases hdecode : reader.decode body with
        | none => simp [Exc.isProxmoxError, Exc.isClientError, Exc.isTimeoutError]
        | some text => simp [throw, throwThe, MonadExceptOf.throw, Exc.isProxmoxError]
  | cutOff status reason err lost =>
      refine iff_of_true (heard_lost lost ?_) not_false
      simp only [ProbeReply.outcome, bind, Except.bind, readResponse]
      split_ifs <;> rfl
  | silence err lost => exact iff_of_true (heard_lost lost rfl) not_false

end Verdict

/-! ## The probe -/

/-- A probe that is sent returns whether the host has answered, and raises nothing, exactly
if what came back can be read. -/
theorem exec_answers_iff {τ β : Type} (reader : BodyReader β) (reply : ProbeReply β)
    (E : Surroundings Machine Outcome) (i : τ) (n : Nat)
    (w : World τ Machine Exchange Outcome Remark) (candidate : Bool)
    (hsent : w.state.client.auth.headersError = none)
    (hrange : (E.during n w.state).client.InRange) (hreply : E.reply n = reply.outcome reader) :
    ((answers candidate).exec E i n w).result = .ok reply.isAnswer ↔ reply.Readable reader := by
  rcases buildRequest_carries (.probe candidate) "GET" "version" none none (some probeTimeout)
    hsent with ⟨request, hbuilt, -⟩
  rw [exec_answers_sent candidate hbuilt hrange, hreply]
  exact verdictOf_outcome_iff reader reply

/-- A reader that takes every text for what it is and finds JSON only in the answer of a
host that has nothing to say. -/
def plainReader : BodyReader String where
  isJson contentType := contentType = "application/json"
  decode body := some body
  loads body := if body = "\x7b\"data\":null\x7d" then some (.obj [("data", .null)]) else none

/-- One reply comes back from everything, and nobody else touches the client. -/
def always (reply : ProbeReply String) : Surroundings Machine Outcome :=
  ⟨fun _ m => m, fun _ => reply.outcome plainReader⟩

/-- A client of one host that has asked nothing yet. -/
def unasked : World Unit Machine Exchange Outcome Remark :=
  ⟨⟨.loggedIn ["192.0.2.1"], 0⟩, []⟩

/-- What its probe returns. -/
def probed (reply : ProbeReply String) : Except Exc Bool :=
  ((answers true).exec (always reply) () 0 unasked).result

/-- A refusal whose page is not JSON is an answer. -/
theorem exec_answers_iff_witness :
    probed (.answer 401 (some "No ticket") "text/html" "<html></html>") = .ok true :=
  (exec_answers_iff plainReader _ (always _) () 0 unasked true rfl Nat.zero_lt_one rfl).mpr rfl

/-- A page that is served with status 200 is taken for silence, and malformed JSON raises. -/
theorem exec_answers_counterexample :
    probed (.answer 200 (some "OK") "text/html" "<html></html>") ≠ .ok true ∧
      ∀ there, probed (.answer 200 (some "OK") "application/json" "<html></html>") ≠ .ok there := by
  constructor
  · intro h
    have hsilent : (.ok false : Except Exc Bool) = .ok true := h
    contradiction
  · intro there h
    have hraises : (.error (.valueError "body is not JSON") : Except Exc Bool) = .ok there := h
    contradiction

end AioProxmox
