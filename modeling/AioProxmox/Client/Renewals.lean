import AioProxmox.Client.Traffic

/-!
# Client - renewals that fail on one host

Any number of requests of a password client whose host answers nothing any more.
Once a candidate has answered a search, the client uses it; a call that failed on
the old host and asks {lit}`failover` with the host it was on finds that the client
has moved, but a renewal asks without it and searches again.

Main results:

- Theorem {lit}`wp_failover_renewal`: what a call of {lit}`failover` finds, before the
  client has moved and after.
- Theorem {lit}`renewals_move_once`: where no renewal takes the lock after the client
  has moved, nobody moves it again and nobody raises the error of the old host.
-/

namespace AioProxmox

open Coroutine

/-- Not what {lit}`request` takes for a lost host. -/
abbrev NotLost (e : Exc) : Prop :=
  e.isLostHost = false

/-- A missing key does not lose a host. -/
theorem notLost_loginErrors : LoginErrors NotLost where
  lookup _ he := Exc.isLookup_isLostHost he
  refusal _ := rfl

/-- An exchange ends in no connection error or timeout, and neither does reading its
answer. -/
structure Audible (reply : Outcome) : Prop where
  exchange : ExchangeErrors NotLost reply
  text : ∀ response e, reply = .ok response → response.text = .error e → NotLost e

/-- An answer whose body can be read is heard. -/
theorem audible_ok {response : Response} {body : String} {payload : Json}
    (htext : response.text = .ok body) (hjson : response.json = .ok payload) :
    Audible (.ok response) where
  exchange := by
    constructor
    · intro e he
      contradiction
    · intro response' e hr he
      cases hr
      rw [hjson] at he
      contradiction
  text response' e hr he := by
    cases hr
    rw [htext] at he
    contradiction

/-- An answer that can be heard loses no host. -/
theorem Audible.readResponse {reply : Outcome} (h : Audible reply) {path : String} {e : Exc}
    (he : (reply >>= AioProxmox.readResponse path) = .error e) : NotLost e := by
  cases reply with
  | error e' =>
      cases he
      exact h.exchange.error e rfl
  | ok response =>
      have he : AioProxmox.readResponse path response = .error e := he
      unfold AioProxmox.readResponse at he
      split_ifs at he
      · cases hjson : response.json with
        | error e' =>
            rw [hjson] at he
            cases he
            exact h.exchange.json response e rfl hjson
        | ok payload =>
            rw [hjson] at he
            cases payload <;> cases he
      · cases htext : response.text with
        | error e' =>
            rw [htext] at he
            cases he
            exact h.text response e rfl htext
        | ok body =>
            rw [htext] at he
            cases he
            rfl

/-- What a probe raises is no connection error or timeout. -/
theorem verdictOf_notLost {reply : Outcome} {e : Exc} (h : verdictOf reply = .error e) :
    NotLost e := by
  unfold verdictOf at h
  cases hread : reply >>= readResponse "version" with
  | ok v =>
      rw [hread] at h
      contradiction
  | error e' =>
      rw [hread] at h
      simp only at h
      split_ifs at h with hapi hhandled
      cases h
      by_contra hlost
      have hhandled' := Exc.isLostHost_handled (Bool.of_not_eq_false hlost)
      simp_all

section Renewals

variable {τ : Type}

/-! ## The scenario -/

/-- A candidate has answered: the search that asked it has moved the client. -/
def MovedIn (history : List (Event τ Exchange Outcome Remark)) : Prop :=
  ∃ j q r, .got j q r ∈ history ∧ q.purpose = .probe true ∧ verdictOf r = .ok true

/-- One host answers nothing; until the client is moved, all but the probes goes there;
the client is moved to another host, which answers from then on. -/
structure Abandons (first : ProxmoxVE) (paths : τ → String) (dead next : String)
    (e : Event τ Exchange Outcome Remark)
    (before : List (Event τ Exchange Outcome Remark)) : Prop where
  sends : ∀ j q, e = .sent j q → q.purpose.isProbe = false → ¬ MovedIn before →
    q.GoesTo first.port (paths j) dead
  silent : ∀ j q r, e = .got j q r → q.GoesTo first.port (paths j) dead →
    ∃ err, r = .error err ∧ err.isLostHost = true
  moves : ∀ j q r, e = .got j q r → q.purpose = .probe true → verdictOf r = .ok true →
    ¬ MovedIn before → q.GoesTo first.port (paths j) next
  answers : ∀ j q r, e = .got j q r → MovedIn before → q.GoesTo first.port (paths j) next →
    Audible r

/-- With what arguments a task entered {lit}`failover` last. -/
def lastEntered [DecidableEq τ] (i : τ) :
    List (Event τ Exchange Outcome Remark) → Option (Option String × Bool)
  | [] => none
  | .noted j (.failoverEntered fromHost verifyCurrent) :: before =>
      if j = i then some (fromHost, verifyCurrent) else lastEntered i before
  | _ :: before => lastEntered i before

/-- No renewal takes the lock once the client has been moved. -/
def NoLateRenewal [DecidableEq τ] (e : Event τ Exchange Outcome Remark)
    (before : List (Event τ Exchange Outcome Remark)) : Prop :=
  ∀ j, e = .locked j → MovedIn before → lastEntered j before ≠ some (none, false)

/-- A task was told, before the client was moved, that it had not been; it has done
nothing since. -/
def ToldBefore (i : τ) (history : List (Event τ Exchange Outcome Remark)) : Prop :=
  ∃ since before, history = since ++ .noted i (.failoverReturned false) :: before ∧
    ¬ MovedIn before ∧ ∀ e ∈ since, e.actor ≠ i

variable {first : ProxmoxVE} {paths : τ → String} {dead next : String} {i : τ}
  {host : String} {w w' : World τ Machine Exchange Outcome Remark}
  {e : Event τ Exchange Outcome Remark}
  {before : List (Event τ Exchange Outcome Remark)}

/-- A move stays one. -/
theorem MovedIn.suffix {later : List (Event τ Exchange Outcome Remark)} (h : MovedIn before)
    (hsuffix : before <:+ later) : MovedIn later := by
  rcases h with ⟨j, q, r, hgot, hrest⟩
  exact ⟨j, q, r, hsuffix.subset hgot, hrest⟩

/-- A move stays one while the history grows. -/
theorem MovedIn.grows (h : MovedIn w.history) (hgrows : w.Grows w') : MovedIn w'.history := by
  rcases hgrows with ⟨new, hnew⟩
  exact h.suffix ⟨new, hnew.symm⟩

/-- Only the answer of a candidate moves the client. -/
theorem movedIn_cons (he : ∀ j q r, e = .got j q r → q.purpose = .probe true →
    verdictOf r ≠ .ok true) : MovedIn (e :: before) ↔ MovedIn before := by
  constructor
  · rintro ⟨j, q, r, hgot, hcandidate, hverdict⟩
    rcases List.mem_cons.mp hgot with heq | hgot
    · exact absurd hverdict (he j q r heq.symm hcandidate)
    · exact ⟨j, q, r, hgot, hcandidate, hverdict⟩
  · rintro ⟨j, q, r, hgot, hrest⟩
    exact ⟨j, q, r, List.mem_cons_of_mem e hgot, hrest⟩

/-- What was told stays told while the task itself does nothing. -/
theorem ToldBefore.growsWithout (h : ToldBefore i w.history) (hgrows : w.GrowsWithout i w') :
    ToldBefore i w'.history := by
  rcases h with ⟨since, before, hhistory, hnot, hsince⟩
  rcases hgrows with ⟨new, hnew, hother⟩
  refine ⟨new ++ since, before, by rw [hnew, hhistory, List.append_assoc], hnot, fun e he => ?_⟩
  rcases List.mem_append.mp he with he | he
  · exact hother e he
  · exact hsince e he

/-- A task that was told before the client was moved, and has acted since some moment if
it had acted before, was told after that moment. -/
theorem ToldBefore.not_moved (h : ToldBefore i w'.history) (hgrows : w.Grows w')
    (hacted : (∃ new, w'.history = new ++ w.history ∧ ∃ e ∈ new, e.actor = i) ∨
      ∀ e ∈ w.history, e.actor ≠ i) : ¬ MovedIn w.history := by
  intro hmoved
  rcases h with ⟨since, before, hhistory, hnot, hsince⟩
  rcases hgrows with ⟨new, hnew⟩
  have htold : .noted i (.failoverReturned false) :: before <:+ w'.history :=
    ⟨since, hhistory.symm⟩
  rcases List.suffix_or_suffix_of_suffix htold ⟨new, hnew.symm⟩ with hearlier | hlater
  · rcases hearlier with ⟨middle, hmiddle⟩
    rcases hacted with ⟨new', hnew', e, he, hactor⟩ | hsilent
    · rw [hhistory, ← hmiddle, ← List.append_assoc] at hnew'
      have hsplit : since = new' ++ middle := List.append_cancel_right hnew'
      exact hsince e (by rw [hsplit]; exact List.mem_append_left _ he) hactor
    · exact hsilent (.noted i (.failoverReturned false)) (by rw [← hmiddle]; simp) rfl
  · rcases List.suffix_cons_iff.mp hlater with hsame | hbefore
    · rw [hsame] at hmoved
      exact hnot ((movedIn_cons (by simp)).mp hmoved)
    · exact hnot (hmoved.suffix hbefore)

/-- Before the client has been moved, no renewal is late. -/
theorem along_noLateRenewal [DecidableEq τ] {history : List (Event τ Exchange Outcome Remark)}
    (hnot : ¬ MovedIn history) : Along NoLateRenewal history := by
  induction history with
  | nil => trivial
  | cons e before ih =>
      have hbefore : ¬ MovedIn before := fun hmoved =>
        hnot (hmoved.suffix (List.suffix_cons e before))
      exact ⟨fun _ _ hmoved => absurd hmoved hbefore, ih hbefore⟩

/-- What others do does not change how a task entered {lit}`failover`. -/
theorem lastEntered_growsWithout [DecidableEq τ] (h : w.GrowsWithout i w') :
    lastEntered i w'.history = lastEntered i w.history := by
  rcases h with ⟨new, hnew, hother⟩
  rw [hnew]
  clear hnew
  induction new with
  | nil => rfl
  | cons e new ih =>
      have hrest := ih fun e he => hother e (List.mem_cons_of_mem _ he)
      have hactor : e.actor ≠ i := hother e List.mem_cons_self
      rw [List.cons_append]
      cases e with
      | noted j remark =>
          cases remark with
          | failoverEntered fromHost verifyCurrent =>
              exact (if_neg hactor).trans hrest
          | _ => exact hrest
      | _ => exact hrest

/-! ## The discipline -/

/-- What holds whenever all tasks are suspended. -/
structure RenewalKept (first : ProxmoxVE) (dead next : String)
    (w : World τ Machine Exchange Outcome Remark) : Prop where
  serves : Serves first w.state.client
  moved : MovedIn w.history → w.state.client.host = .ok next ∧ dead ≠ next

/-- The clock does not matter. -/
theorem RenewalKept.sameClient {first : ProxmoxVE} {dead next : String}
    {w : World τ Machine Exchange Outcome Remark} (h : RenewalKept first dead next w) {s : Machine}
    (hsame : s.client = w.state.client) : RenewalKept first dead next { w with state := s } where
  serves := by simpa only [hsame] using h.serves
  moved := by simpa only [hsame] using h.moved

/-- Only a call that holds the lock moves the client. -/
def renewalDiscipline [DecidableEq τ] (first : ProxmoxVE) (paths : τ → String)
    (dead next : String) : Discipline τ Machine Exchange Outcome Remark where
  assume := Along fun e before => Abandons first paths dead next e before ∧ NoLateRenewal e before
  environment _ s s' := s'.client = s.client
  suspended := RenewalKept first dead next
  free _ := True
  rely j held w w' := w.GrowsWithout j w' ∧ (held = true →
    w'.state.client.withoutTokens = w.state.client.withoutTokens ∧
      (MovedIn w'.history → MovedIn w.history))
  assume_tail _ _ h := h.2
  rely_refl _ _ w := ⟨World.GrowsWithout.refl w, fun _ => ⟨rfl, id⟩⟩
  rely_trans _ _ _ _ _ h₁ h₂ :=
    ⟨h₁.1.trans h₂.1, fun hheld =>
      ⟨(h₂.2 hheld).1.trans (h₁.2 hheld).1, (h₁.2 hheld).2 ∘ (h₂.2 hheld).2⟩⟩
  rely_weaken _ _ _ h := ⟨h.1, fun hheld => absurd hheld (by decide)⟩
  environment_suspended _ _ _ h hs := hs.sameClient h
  environment_rely _ _ w _ h _ := ⟨World.GrowsWithout.refl w, fun _ => ⟨by rw [h], id⟩⟩
  environment_free _ _ _ _ hfree := hfree

/-- No event but the answer of a candidate moves the client. -/
theorem RenewalKept.log (h : RenewalKept first dead next w)
    (he : ∀ j q r, e = .got j q r → q.purpose = .probe true → verdictOf r ≠ .ok true) :
    RenewalKept first dead next (w.log e) :=
  ⟨h.serves, fun hmoved => h.moved ((movedIn_cons he).mp hmoved)⟩

/-- Before the client has moved, only its list and its URLs matter. -/
theorem Serves.renewalKept (h : Serves first w.state.client) (hnot : ¬ MovedIn w.history) :
    RenewalKept first dead next w :=
  ⟨h, fun hmoved => absurd hmoved hnot⟩

/-- How a request ends: in a lost host only where it was told so before the client was
moved. -/
structure RequestEnded (first : ProxmoxVE) (dead next : String) (i : τ) {α : Type}
    (r : Except Exc α) (w : World τ Machine Exchange Outcome Remark) : Prop where
  kept : RenewalKept first dead next w
  lost : ∀ e, r = .error e → e.isLostHost = true → ToldBefore i w.history

/-- A request that ends without losing its host has ended as told. -/
theorem RequestEnded.of_notLost {α : Type} {r : Except Exc α}
    (h : RenewalKept first dead next w) (hr : ∀ e, r = .error e → NotLost e) :
    RequestEnded first dead next i r w := by
  refine ⟨h, fun e he hlost => ?_⟩
  rw [hr e he] at hlost
  contradiction

variable [DecidableEq τ]

/-- Without the lock a task may log what is no answer of a candidate. -/
theorem allows_renewal (hactor : e.actor = i)
    (he : ∀ j q r, e = .got j q r → q.purpose = .probe true → verdictOf r ≠ .ok true) :
    (renewalDiscipline first paths dead next).Allows i false w (w.log e) where
  others j hj := by
    refine ⟨World.GrowsWithout.log w (by rw [hactor]; exact hj.symm), fun _ => ⟨rfl, ?_⟩⟩
    exact (movedIn_cons he).mp
  free _ h := h

/-- The lock's owner may log anything of its own and put any host in use. -/
theorem allows_mover (hgrows : w'.history = w.history ∨ ∃ e, e.actor = i ∧
    w'.history = e :: w.history) :
    (renewalDiscipline first paths dead next).Allows i true w w' where
  others j hj := ⟨.of_one hgrows hj, fun hheld => absurd hheld (by decide)⟩
  free hheld := absurd hheld (by decide)

/-- An exchange of a task without the lock. -/
theorem logs_renewal (h : RenewalKept first dead next w) {q : Exchange}
    (hprobe : q.purpose.isProbe = false)
    {K : Outcome → World τ Machine Exchange Outcome Remark → Prop}
    (hK : Abandons first paths dead next (.sent i q) w.history → ∀ r w₂, w.Grows w₂ →
      Abandons first paths dead next (.got i q r) w₂.history →
      RenewalKept first dead next (w₂.log (.got i q r)) → K r (w₂.log (.got i q r))) :
    (renewalDiscipline first paths dead next).Logs i false w (.sent i q) fun w₁ =>
      RenewalKept first dead next w₁ ∧
        ∀ w₂ r, (renewalDiscipline first paths dead next).rely i false w₁ w₂ →
          RenewalKept first dead next w₂ →
          (renewalDiscipline first paths dead next).Logs i false w₂ (.got i q r) (K r) := by
  have hgot : ∀ r j q' r', (.got i q r : Event τ Exchange Outcome Remark) = .got j q' r' →
      q'.purpose = .probe true → verdictOf r' ≠ .ok true := by
    intro r j q' r' heq hcandidate
    cases heq
    rw [hcandidate] at hprobe
    contradiction
  intro hsent
  refine ⟨allows_renewal rfl (by simp), h.log (by simp), fun w₂ r hr hs hreply => ?_⟩
  refine ⟨allows_renewal rfl (hgot r), hK hsent.1.1 r w₂ ?_ hreply.1.1 (hs.log (hgot r))⟩
  exact ((World.Grows.refl w).log _).trans hr.1.grows

/-- The logins of any call. -/
theorem renewal_logins : Logins (renewalDiscipline first paths dead next) i false
    (RenewalKept first dead next) fun _ => True where
  errors := ⟨fun _ _ => trivial, fun _ => trivial⟩
  tokens w s h hframe := by
    rcases h.serves.tokens (hframe : s.client.withoutTokens = _) with ⟨hserves, hsame⟩
    constructor
    · exact ⟨fun _ _ => ⟨⟨[], rfl, by simp⟩, fun _ => ⟨hframe, id⟩⟩, fun _ hfree => hfree⟩
    · exact ⟨hserves, fun hmoved => ⟨hsame.trans (h.moved hmoved).1, (h.moved hmoved).2⟩⟩
  remarks w e h _ _ := ⟨allows_renewal rfl (by simp), h.log (by simp)⟩
  posts w q auth h hauth hlogin hurl :=
    logs_renewal h (Purpose.isProbe_of_isLogin hlogin) fun _ r w₂ _ _ hkept =>
      ⟨hkept, fun _ _ => trivial, fun _ _ _ _ => trivial⟩

/-- The invariant once the client has been moved. -/
def MovedKept (first : ProxmoxVE) (dead next : String)
    (w : World τ Machine Exchange Outcome Remark) : Prop :=
  RenewalKept first dead next w ∧ MovedIn w.history

/-- The logins of a call on the host the client was moved to. -/
theorem moved_logins : Logins (renewalDiscipline first paths dead next) i false
    (MovedKept first dead next) NotLost where
  errors := notLost_loginErrors
  tokens w s h hframe := by
    rcases renewal_logins.tokens w s h.1 hframe with ⟨hallowed, hkept⟩
    exact ⟨hallowed, hkept, h.2⟩
  remarks w e h _ _ := ⟨allows_renewal rfl (by simp), h.1.log (by simp),
    h.2.grows ((World.Grows.refl w).log _)⟩
  posts w q auth h hauth hlogin hurl := by
    refine logs_renewal h.1 (Purpose.isProbe_of_isLogin hlogin) fun _ r w₂ hgrows hreply hkept => ?_
    have hgoes : q.GoesTo first.port (paths i) next :=
      h.1.serves.login_goesTo (h.1.moved h.2).1 hauth hlogin hurl
    have hmoved : MovedIn w₂.history := h.2.grows hgrows
    exact ⟨⟨hkept, hmoved.grows ((World.Grows.refl w₂).log _)⟩,
      (hreply.answers i q r rfl hmoved hgoes).exchange⟩

/-- A sending of the caller's request on the host the client was moved to. -/
theorem send_upholds_moved (method : String) {path : String} (jsonData params : Option Dict)
    (hpath : paths i = path) :
    Co.Upholds (renewalDiscipline first paths dead next) i false (MovedKept first dead next)
      NotLost (requestOnce .request method path jsonData params none) := by
  intro w h
  refine wp_requestOnce (fun e he => ?_) fun request _ hurl => ?_
  · refine ⟨rfl, h, fun e' heq => ?_⟩
    cases heq
    rcases (Auth.headersError_keyError he).2 with ⟨key, rfl⟩
    rfl
  · refine logs_renewal h.1 rfl fun _ r w₂ hgrows hreply hkept => ?_
    have hgoes := h.1.serves.goesTo (q := ⟨.request, request⟩) (h.1.moved h.2).1 rfl hurl
      hpath.symm
    have hmoved : MovedIn w₂.history := h.2.grows hgrows
    refine ⟨rfl, ⟨hkept, hmoved.grows ((World.Grows.refl w₂).log _)⟩, fun e he => ?_⟩
    exact (hreply.answers i _ r rfl hmoved hgoes).readResponse he

/-! ## The search -/

/-- A probe before the client has moved: the dead host is silent, and a candidate that
answers has moved the client. -/
theorem wp_answers_renewal {candidate : Bool} {Q : Ends τ Bool}
    (h : Serves first w.state.client) (hnot : ¬ MovedIn w.history)
    (hcurrent : candidate = false → w.state.client.host = .ok dead)
    (hthere : candidate = true → ∀ w', RenewalKept first dead next w' → MovedIn w'.history →
      Q true (.ok true) w')
    (hsilent : ∀ w', Serves first w'.state.client → ¬ MovedIn w'.history →
      Q true (.ok false) w')
    (herror : ∀ e w', RenewalKept first dead next w' → NotLost e → Q true (.error e) w') :
    (answers candidate).wp (renewalDiscipline first paths dead next) i true Q w := by
  refine wp_answers (fun e he => ?_) fun request _ hurl => ?_
  · rcases (Auth.headersError_keyError he).2 with ⟨key, rfl⟩
    exact herror _ w (h.renewalKept hnot) rfl
  · let q : Exchange := ⟨.probe candidate, request⟩
    rcases h.exists_host with ⟨host, hhost, -⟩
    have hgoes : q.GoesTo first.port (paths i) host := h.goesTo hhost rfl hurl rfl
    have hnot₁ : ¬ MovedIn (w.log (.sent i q)).history :=
      fun hmoved => hnot ((movedIn_cons (by simp)).mp hmoved)
    intro _
    refine ⟨allows_mover (.inr ⟨_, rfl, rfl⟩), h.renewalKept (w := w.log (.sent i q)) hnot₁,
      fun w₂ r hr hs hreply => ?_⟩
    rcases hr.2 rfl with ⟨hsame, hback⟩
    have hnot₂ : ¬ MovedIn w₂.history := fun hmoved => hnot₁ (hback hmoved)
    have hhere : w₂.state.client.host = .ok host := (h.tokens hsame).2.trans hhost
    have hdead : q.GoesTo first.port (paths i) dead → verdictOf r = .ok false := by
      intro hgoes'
      rcases hreply.1.1.silent i q r rfl hgoes' with ⟨err, rfl, hlost⟩
      exact verdictOf_lost hlost
    have hstill : verdictOf r ≠ .ok true → ¬ MovedIn (w₂.log (.got i q r)).history := by
      intro hverdict hmoved
      refine hnot₂ ((movedIn_cons fun j q' r' heq _ => ?_).mp hmoved)
      cases heq
      exact hverdict
    refine ⟨allows_mover (.inr ⟨_, rfl, rfl⟩), ⟨host, hhere⟩, ?_⟩
    rcases hverdict : verdictOf r with e | there
    · refine herror e _ (Serves.renewalKept hs.serves (hstill ?_)) (verdictOf_notLost hverdict)
      rw [hverdict]
      simp
    · cases there with
      | false =>
          refine hsilent _ hs.serves (hstill ?_)
          rw [hverdict]
          simp
      | true =>
          cases candidate with
          | false =>
              have hsame := hcurrent rfl
              rw [hhost, Except.ok.injEq] at hsame
              subst hsame
              have := hdead hgoes
              rw [hverdict] at this
              contradiction
          | true =>
              have hnext := hreply.1.1.moves i q r rfl rfl hverdict hnot₂
              have hmoved : MovedIn (w₂.log (.got i q r)).history :=
                ⟨i, q, r, List.mem_cons_self, rfl, hverdict⟩
              refine hthere rfl _ ⟨hs.serves, fun _ => ⟨?_, ?_⟩⟩ hmoved
              · rw [← hgoes.unique hnext]
                exact hhere
              · rintro rfl
                have := hdead hnext
                rw [hverdict] at this
                contradiction

/-- How a search, and {lit}`failover` after it, ends: it says that the client has moved
where a candidate has answered, or where the caller was on a host no longer in use. -/
structure MoveEnded (first : ProxmoxVE) (dead next : String) (fromHost : Option String)
    (r : Except Exc Bool) (w : World τ Machine Exchange Outcome Remark) : Prop where
  kept : RenewalKept first dead next w
  elsewhere : r = .ok true →
    MovedIn w.history ∨ fromHost ≠ none ∧ w.state.client.host ≠ .ok dead
  raised : ∀ e, r = .error e → NotLost e

/-- The walk, before the client has moved. -/
theorem wp_walk_renewal {start : Nat} {origin : String}
    (hstart : first.hosts[start]? = some origin) (fromHost : Option String)
    (offsets : List Nat) (h : Serves first w.state.client) (hnot : ¬ MovedIn w.history) :
    (walk start offsets).wp (renewalDiscipline first paths dead next) i true
      (fun held r w' => held = true ∧ MoveEnded first dead next fromHost r w' ∧
        (r = .ok false → ¬ MovedIn w'.history)) w := by
  have hlt : ∀ {client : ProxmoxVE}, Serves first client → start < client.hosts.length := by
    intro client h
    rw [h.hosts]
    exact (List.getElem?_eq_some_iff.mp hstart).1
  refine wp_walk (I := fun _ w => Serves first w.state.client ∧ ¬ MovedIn w.history)
    ?_ ?_ ?_ ?_ offsets ⟨h, hnot⟩
  · intro _ w w₁ w₂ _ h₁ h₂
    exact allows_mover (.inl (h₂.trans h₁.symm))
  · intro _ w hw
    exact hlt hw.1
  · intro w host ⟨hserves, hnot⟩ hback
    refine ⟨rfl, ⟨?_, by simp, by simp⟩, fun _ => hnot⟩
    exact (hserves.placedAt hback).renewalKept (w := { w with state := w.state.placedAt _ _ }) hnot
  · intro _ _ w index host ⟨hserves, hnot⟩ _ hhost
    refine wp_answers_renewal (w := { w with state := w.state.placedAt _ _ })
      (hserves.placedAt hhost) hnot (by simp) (fun _ w' hkept hmoved => ?_)
      (fun w' hserves' hnot' => ⟨rfl, hserves', hnot'⟩) fun e w' hkept he => ?_
    · exact ⟨hlt hkept.serves, ⟨next, (hkept.moved hmoved).1⟩, rfl,
        ⟨hkept, fun _ => .inl hmoved, by simp⟩, by simp⟩
    · refine ⟨rfl, ⟨hkept, by simp, fun e' heq => ?_⟩, by simp⟩
      cases heq
      exact he

/-- With what arguments {lit}`request` calls {lit}`failover`: for a renewal without
asking the host in use, or for a request with the host it was sent to. -/
def EntersAs (dead : String) (fromHost : Option String) (verifyCurrent : Bool) : Prop :=
  fromHost = none ∧ verifyCurrent = false ∨ fromHost = some dead ∧ verifyCurrent = true

/-- The search under the lock. -/
theorem wp_switchHost_renewal {fromHost : Option String} {verifyCurrent : Bool}
    (hcall : EntersAs dead fromHost verifyCurrent) (h : RenewalKept first dead next w)
    (hlate : fromHost = none → ¬ MovedIn w.history) :
    (switchHost fromHost verifyCurrent).wp (renewalDiscipline first paths dead next) i true
      (fun held r w' => held = true ∧ MoveEnded first dead next fromHost r w' ∧
        (r = .ok false → ¬ MovedIn w'.history)) w := by
  rcases h.serves.exists_host with ⟨origin, horigin, -⟩
  have hstart : first.hosts[w.state.client.hostIndex]? = some origin := by
    rw [← h.serves.hosts]
    exact ProxmoxVE.host_eq_ok_iff.mp horigin
  refine wp_switchHost horigin (fun hany => ?_) fun hany => ?_
  · rcases hcall with ⟨rfl, -⟩ | ⟨rfl, -⟩
    · contradiction
    · have hne : dead ≠ origin := bne_iff_ne.mp hany
      refine ⟨rfl, ⟨h, fun _ => .inr ⟨by simp, ?_⟩, by simp⟩, by simp⟩
      rw [horigin]
      exact fun heq => hne (Except.ok.inj heq).symm
  · rcases hcall with ⟨rfl, rfl⟩ | ⟨rfl, rfl⟩
    · -- a renewal: no question is asked of the host in use
      exact wp_walk_renewal hstart none _ h.serves (hlate rfl)
    · have hsame : dead = origin := by simpa using hany
      subst hsame
      have hnot : ¬ MovedIn w.history := by
        intro hmoved
        have hhere := (h.moved hmoved).1
        rw [horigin, Except.ok.injEq] at hhere
        exact (h.moved hmoved).2 hhere
      rw [stillAnswers_true]
      refine wp_answers_renewal h.serves hnot (fun _ => horigin) (by simp)
        (fun w' hserves hnot' => wp_walk_renewal hstart _ _ hserves hnot') fun e w' hkept he => ?_
      refine ⟨rfl, ⟨hkept, by simp, fun e' heq => ?_⟩, by simp⟩
      cases heq
      exact he

/-- A call of {lit}`failover` by a request, where no renewal is late. -/
theorem wp_failover_renewal {fromHost : Option String} {verifyCurrent : Bool}
    (hcall : EntersAs dead fromHost verifyCurrent) (h : RenewalKept first dead next w) :
    (failover fromHost verifyCurrent).wp (renewalDiscipline first paths dead next) i false
      (fun held r w' => held = false ∧ MoveEnded first dead next fromHost r w' ∧
        (r = .ok false → ToldBefore i w'.history)) w := by
  have hmovedIn : ∀ {e : Event τ Exchange Outcome Remark} {before}, (∀ j q r, e ≠ .got j q r) →
      (MovedIn (e :: before) ↔ MovedIn before) :=
    fun he => movedIn_cons fun j q r heq => absurd heq (he j q r)
  apply wp_failover
  intro _
  refine ⟨allows_renewal rfl (by simp), h.log (by simp), fun w₁ hr hs _ hlocked => ?_⟩
  refine ⟨allows_mover (.inr ⟨_, rfl, rfl⟩), ?_⟩
  have hentered : lastEntered i w₁.history = some (fromHost, verifyCurrent) := by
    rw [lastEntered_growsWithout hr.1]
    exact if_pos rfl
  have hlate : fromHost = none → ¬ MovedIn (w₁.log (.locked i)).history := by
    rintro rfl hmoved
    rcases hcall with ⟨-, rfl⟩ | ⟨hsome, -⟩
    · exact hlocked.1.2 i rfl ((hmovedIn (by simp)).mp hmoved) hentered
    · contradiction
  apply Co.wp_mono (wp_switchHost_renewal hcall (hs.log (e := .locked i) (by simp)) hlate)
  rintro _ r w₂ ⟨rfl, hended, hnot⟩
  have hreleased : MoveEnded first dead next fromHost r (w₂.log (.released i)) := by
    refine ⟨hended.kept.log (by simp), fun hr => ?_, hended.raised⟩
    exact (hended.elsewhere hr).imp_left (hmovedIn (by simp)).mpr
  refine ⟨rfl, fun _ => ⟨allows_mover (.inr ⟨_, rfl, rfl⟩), trivial, ?_, ?_⟩⟩
  · rintro verdict rfl _
    refine ⟨allows_renewal rfl (by simp), rfl, ⟨hreleased.kept.log (by simp), fun hr => ?_,
      by simp⟩, fun hr => ?_⟩
    · exact (hreleased.elsewhere hr).imp_left (hmovedIn (by simp)).mpr
    · cases hr
      refine ⟨[], _, rfl, fun hmoved => ?_, by simp⟩
      exact hnot rfl ((hmovedIn (by simp)).mp hmoved)
  · rintro e rfl
    exact ⟨rfl, hreleased, by simp⟩

/-! ## Whole requests -/

omit [DecidableEq τ] in
/-- What a search raises is no lost host. -/
theorem MoveEnded.requestEnded {α : Type} {fromHost : Option String} {e : Exc}
    (h : MoveEnded first dead next fromHost (.error e) w) :
    RequestEnded first dead next i (.error e : Except Exc α) w := by
  refine .of_notLost h.kept fun e' he => ?_
  cases he
  exact h.raised e rfl

/-- A task that upholds the invariant on the new host ends as a request may. -/
theorem wp_moved {α : Type} {p : Prog α} (hp : Co.Upholds (renewalDiscipline first paths dead next)
    i false (MovedKept first dead next) NotLost p) (h : MovedKept first dead next w) :
    p.wp (renewalDiscipline first paths dead next) i false
      (fun held r w' => held = false ∧ RequestEnded first dead next i r w') w := by
  apply Co.wp_mono (hp w h)
  rintro held r w' ⟨hheld, hkept, hr⟩
  exact ⟨hheld, .of_notLost hkept.1 hr⟩

/-- A renewal on another host follows a search for it. -/
theorem wp_failoverIfPeers_renewal {fromHost : Option String} {verifyCurrent : Bool}
    (hpeers : 2 ≤ first.hosts.length) (hcall : EntersAs dead fromHost verifyCurrent)
    (h : RenewalKept first dead next w) :
    (failoverIfPeers fromHost verifyCurrent).wp (renewalDiscipline first paths dead next) i false
      (fun held r w' => held = false ∧ MoveEnded first dead next fromHost r w' ∧
        (r = .ok false → ToldBefore i w'.history)) w := by
  have hmany : ¬ w.state.client.hosts.length < 2 := by
    rw [h.serves.hosts]
    omega
  unfold failoverIfPeers
  rw [Co.wp_bind]
  simp only [wp_self, hmany, if_false]
  exact wp_failover_renewal hcall h

/-- The renewal of a ticket, on the new host if it moved the client there. -/
theorem wp_renewalStage_renewal (hpeers : 2 ≤ first.hosts.length)
    (h : RenewalKept first dead next w) :
    renewalStage.wp (renewalDiscipline first paths dead next) i false
      (fun held r w' => held = false ∧ RequestEnded first dead next i r w') w := by
  unfold renewalStage
  rw [Co.wp_tryCatch]
  apply Co.wp_mono (checkAndRefresh_upholds renewal_logins w h)
  rintro _ r w₁ ⟨rfl, hkept, -⟩
  cases r with
  | ok v => exact ⟨rfl, hkept, by simp⟩
  | error err =>
      unfold renewElsewhere
      by_cases hlost : err.isLostHost = true
      · simp only [hlost, if_true]
        rw [Co.wp_bind]
        apply Co.wp_mono (wp_failoverIfPeers_renewal hpeers (.inl ⟨rfl, rfl⟩) hkept)
        rintro _ r w₂ ⟨rfl, hended, htold⟩
        cases r with
        | error e => exact ⟨rfl, hended.requestEnded⟩
        | ok moved =>
            cases moved with
            | true =>
                rcases hended.elsewhere rfl with hmoved | ⟨hsome, -⟩
                · exact wp_moved (checkAndRefresh_upholds moved_logins) ⟨hended.kept, hmoved⟩
                · contradiction
            | false => exact ⟨rfl, hended.kept, fun _ _ _ => htold rfl⟩
      · simp only [hlost, Bool.false_eq_true, if_false]
        refine ⟨rfl, .of_notLost hkept fun e he => ?_⟩
        cases he
        exact Bool.of_not_eq_true hlost

/-- A request lost on the dead host is repeated where the client has moved to. -/
theorem wp_recover_lost (hpeers : 2 ≤ first.hosts.length) (method : String) {path : String}
    (jsonData params : Option Dict) (hpath : paths i = path) {err : Exc}
    (hlost : err.isLostHost = true) (h : RenewalKept first dead next w) :
    (recover method path jsonData params dead err).wp (renewalDiscipline first paths dead next)
      i false (fun held r w' => held = false ∧ RequestEnded first dead next i r w') w := by
  rw [recover_lost hlost, Co.wp_bind]
  apply Co.wp_mono (wp_failoverIfPeers_renewal hpeers (.inr ⟨rfl, rfl⟩) h)
  rintro _ r w₁ ⟨rfl, hended, htold⟩
  cases r with
  | error e => exact ⟨rfl, hended.requestEnded⟩
  | ok moved =>
      cases moved with
      | false => exact ⟨rfl, hended.kept, fun _ _ _ => htold rfl⟩
      | true =>
          by_cases hmoved : MovedIn w₁.history
          · exact wp_moved (send_upholds_moved method jsonData params hpath) ⟨hended.kept, hmoved⟩
          · -- the client is on some other host, yet what it sends still goes to the dead one
            have helsewhere := ((hended.elsewhere rfl).resolve_left hmoved).2
            refine wp_requestOnce (fun e he => ⟨rfl, ?_⟩) fun request _ hurl hsent => ?_
            · rcases (Auth.headersError_keyError he).2 with ⟨key, rfl⟩
              exact .of_notLost hended.kept fun e' he' => by cases he'; rfl
            · rcases hended.kept.serves.exists_host with ⟨host, hhost, -⟩
              have hgoes := hended.kept.serves.goesTo (q := ⟨.request, request⟩) hhost rfl hurl
                hpath.symm
              have hdead := hsent.1.1.sends i _ rfl rfl hmoved
              rw [hhost, hgoes.unique hdead] at helsewhere
              exact absurd rfl helsewhere

/-- A request answered on the new host is repeated there at most. -/
theorem recover_upholds_moved (method : String) {path : String}
    (jsonData params : Option Dict) (hpath : paths i = path) (hostBefore : String) {err : Exc}
    (hnot : NotLost err) :
    Co.Upholds (renewalDiscipline first paths dead next) i false (MovedKept first dead next)
      NotLost (recover method path jsonData params hostBefore err) := by
  unfold recover
  split
  · refine Co.Upholds.bind (fun w h => ⟨rfl, h, by simp⟩) fun client => ?_
    split_ifs
    · exact Co.Upholds.throw hnot
    · exact (relogin_upholds moved_logins).bind fun _ =>
        send_upholds_moved method jsonData params hpath
  · rw [if_neg (by rw [hnot]; decide)]
    exact Co.Upholds.throw hnot

/-- The first sending, and what follows it. -/
theorem wp_send_renewal (hpeers : 2 ≤ first.hosts.length) (method : String) {path : String}
    (jsonData params : Option Dict) (hpath : paths i = path)
    (h : RenewalKept first dead next w) (hhost : w.state.client.host = .ok host) :
    (tryCatch (send method path jsonData params) (recover method path jsonData params host) :
        Prog Json).wp (renewalDiscipline first paths dead next) i false
      (fun held r w' => held = false ∧ RequestEnded first dead next i r w') w := by
  rw [Co.wp_tryCatch]
  by_cases hmoved : MovedIn w.history
  · apply Co.wp_mono (send_upholds_moved method jsonData params hpath w ⟨h, hmoved⟩)
    rintro _ r w₁ ⟨rfl, hkept, hnot⟩
    cases r with
    | ok v => exact ⟨rfl, hkept.1, by simp⟩
    | error e =>
        exact wp_moved (recover_upholds_moved method jsonData params hpath host (hnot e rfl)) hkept
  · refine wp_requestOnce (fun e he => ?_) fun request _ hurl => ?_
    · rcases (Auth.headersError_keyError he).2 with ⟨key, rfl⟩
      exact ⟨rfl, .of_notLost h fun e' he' => by cases he'; rfl⟩
    · have hgoes := h.serves.goesTo (q := ⟨.request, request⟩) hhost rfl hurl hpath.symm
      refine logs_renewal h rfl fun hsent r w₂ _ hreply hkept => ?_
      have hdead := hsent.sends i _ rfl rfl hmoved
      rcases hreply.silent i _ r rfl hdead with ⟨err, rfl, hlost⟩
      rw [hgoes.unique hdead]
      exact wp_recover_lost hpeers method jsonData params hpath hlost hkept

/-- A whole request. -/
theorem wp_request_renewal (hpeers : 2 ≤ first.hosts.length) (method : String) {path : String}
    (jsonData params : Option Dict) (hpath : paths i = path)
    (h : RenewalKept first dead next w) :
    (request method path jsonData params).wp (renewalDiscipline first paths dead next) i false
      (fun held r w' => held = false ∧ RequestEnded first dead next i r w') w := by
  rw [request_eq, Co.wp_bind]
  apply Co.wp_mono (wp_renewalStage_renewal hpeers h)
  rintro _ r w₁ ⟨rfl, hended⟩
  cases r with
  | error e =>
      refine ⟨rfl, hended.kept, fun e' he' hlost => ?_⟩
      cases he'
      exact hended.lost e rfl hlost
  | ok v =>
      rcases hended.kept.serves.exists_host with ⟨host, hhost, -⟩
      simp only [Co.wp_bind, wp_currentHost, hhost]
      exact wp_send_renewal hpeers method jsonData params hpath hended.kept hhost

end Renewals

/-! ## Every run -/

/-- In every run of any requests whose host answers nothing, once a candidate has
answered the client uses it and no request that has not ended yet ends in a lost host, if
no renewal takes the lock after that. -/
theorem renewals_move_once {n : Nat} {m : Machine} (calls : Fin n → RequestCall)
    {dead next : String} (hm : m.client.Coherent) (hpeers : 2 ≤ m.client.hosts.length)
    {c c' : Config (Fin n) Machine Exchange Outcome Exc Remark Json}
    (hrun : Config.Reaches ClientKept (.initial m fun i => (calls i).run) c)
    (hafter : Config.Reaches ClientKept c c')
    (habandons : Along (Abandons m.client (fun i => (calls i).path) dead next) c'.world.history)
    (hlate : Along NoLateRenewal c'.world.history) (hmoved : MovedIn c.world.history) :
    c'.world.state.client.host = .ok next ∧
      ∀ i e, c.result i = none → c'.result i = some (.error e) → NotLost e := by
  let D : Discipline (Fin n) Machine Exchange Outcome Remark :=
    renewalDiscipline m.client (fun i => (calls i).path) dead next
  have hlasting : ∀ i, Co.Lasting D i
      (fun held r w =>
        held = false ∧ RequestEnded m.client dead next i r w : Ends (Fin n) Json) := by
    intro i
    constructor
    · intro _ _ w h
      exact h.2.kept
    · intro _ _ w₁ w₂ h hr hs
      exact ⟨h.1, hs, fun e he hlost => (h.2.lost e he hlost).growsWithout hr.1⟩
  have hinit : Config.Respects D (fun i held r w => held = false ∧
      RequestEnded m.client dead next i r w) (.initial m fun i => (calls i).run) := by
    have hstart : RenewalKept m.client dead next
        (⟨m, []⟩ : World (Fin n) Machine Exchange Outcome Remark) :=
      (Serves.refl hm).renewalKept (by simp [MovedIn])
    apply Config.initial_respects hstart trivial
    intro i w _ hs
    exact wp_request_renewal hpeers _ _ _ rfl hs
  have hassume : D.assume c'.world.history := along_and.mpr ⟨habandons, hlate⟩
  have hc' := hinit.reaches hlasting (fun c f hf => hf) (hrun.trans hafter) hassume
  have hgrows : c.world.Grows c'.world := Config.reaches_grows hafter
  refine ⟨(hc'.suspended.moved (hmoved.grows hgrows)).1, fun i e hbefore hended => ?_⟩
  by_contra hlost
  have htold := (hc'.result hended).2.lost e rfl (Bool.of_not_eq_false hlost)
  exact absurd hmoved (htold.not_moved hgrows (Config.acted_since hrun hafter hbefore hended))

/-! ## Two requests -/

/-- A client as it logs in is coherent. -/
theorem loggedIn_coherent (host : String) (others : List String) :
    (ProxmoxVE.loggedIn (host :: others)).Coherent where
  host := ⟨host, rfl, rfl⟩
  auth _ := rfl

/-- Two requests for the list of nodes. -/
def twoRequests (_ : Fin 2) : RequestCall where
  method := "GET"
  path := "nodes"

/-- A password client with two hosts, its ticket an hour old. -/
def dueMachine : Machine where
  client := .loggedIn ["192.0.2.1", "192.0.2.2"]
  monotonic := 3600

section TwoRequests

variable {i : Fin 2} {q : Exchange} {r : Outcome}
  {before : List (Event (Fin 2) Exchange Outcome Remark)}

/-- An event is as two requests leave it when the first host answers nothing. -/
abbrev LeavesFirst : Event (Fin 2) Exchange Outcome Remark →
    List (Event (Fin 2) Exchange Outcome Remark) → Prop :=
  Abandons dueMachine.client (fun i => (twoRequests i).path) "192.0.2.1" "192.0.2.2"

/-- The first send goes to the configured host, a probe anywhere, the rest after the move. -/
theorem leavesFirst_sent (h : q.GoesTo defaultPvePort "nodes" "192.0.2.1" ∨
    q.purpose.isProbe = true ∨ MovedIn before) : LeavesFirst (.sent i q) before := by
  refine ⟨fun j q' heq hprobe hnot => ?_, by simp, by simp, by simp⟩
  cases heq
  rcases h with hgoes | hyes | hmoved
  · exact hgoes
  · rw [hyes] at hprobe
    contradiction
  · exact absurd hmoved hnot

/-- The configured host is silent. -/
theorem leavesFirst_silent (hgoes : q.GoesTo defaultPvePort "nodes" "192.0.2.1") (text : String) :
    LeavesFirst (.got i q (.error (.timeoutError text))) before := by
  refine ⟨by simp, fun j q' r heq _ => ?_, fun j q' r heq _ hverdict => ?_,
    fun j q' r heq _ hgoes' => ?_⟩
  · cases heq
    exact ⟨_, rfl, rfl⟩
  · cases heq
    rw [verdictOf_lost rfl] at hverdict
    contradiction
  · cases heq
    exact absurd (hgoes.unique hgoes') (by decide)

/-- The second one answers. -/
theorem leavesFirst_answered (hgoes : q.GoesTo defaultPvePort "nodes" "192.0.2.2")
    (hr : Audible r) : LeavesFirst (.got i q r) before := by
  refine ⟨by simp, fun j q' r heq hgoes' => ?_, fun j q' r heq _ _ _ => ?_,
    fun j q' r heq _ _ => ?_⟩
  · cases heq
    exact absurd (hgoes.unique hgoes') (by decide)
  · cases heq
    exact hgoes
  · cases heq
    exact hr

/-- The second one does not answer before the client has moved there. -/
theorem leavesFirst_waiting (hgoes : q.GoesTo defaultPvePort "nodes" "192.0.2.2")
    (hr : verdictOf r = .ok false) (hnot : ¬ MovedIn before) : LeavesFirst (.got i q r) before := by
  refine ⟨by simp, fun j q' r heq hgoes' => ?_, fun j q' r heq _ hverdict => ?_,
    fun j q' r heq hmoved => absurd hmoved hnot⟩
  · cases heq
    exact absurd (hgoes.unique hgoes') (by decide)
  · cases heq
    rw [hr] at hverdict
    contradiction

/-- Other events ask for nothing. -/
theorem leavesFirst_other {e : Event (Fin 2) Exchange Outcome Remark}
    (hsent : ∀ j q, e ≠ .sent j q) (hgot : ∀ j q r, e ≠ .got j q r) : LeavesFirst e before where
  sends j q heq := absurd heq (hsent j q)
  silent j q r heq := absurd heq (hgot j q r)
  moves j q r heq := absurd heq (hgot j q r)
  answers j q r heq := absurd heq (hgot j q r)

end TwoRequests

/-- The answer to a login. -/
def loginReply : Outcome :=
  .ok { status := 200, json := .ok (.obj [("data", .obj [("ticket", .str "PVE:root@pam:2"),
    ("CSRFPreventionToken", .str "2:token")])]) }

/-- One renewal finds nobody and is given up; then the other one moves the client. -/
theorem renewals_move_once_witness :
    ∃ c c' : Config (Fin 2) Machine Exchange Outcome Exc Remark Json,
      MovedIn c.world.history ∧ c.result 0 = none ∧ c'.result 0 = some (.ok .null) ∧
      c'.world.state.client.host = .ok "192.0.2.2" ∧
      ∀ i e, c.result i = none → c'.result i = some (.error e) → NotLost e := by
  let moving : List (Action (Fin 2) Machine Outcome) :=
    [.start 0, .start 1, .resume 0 (replyOf false), .resume 1 (replyOf false), .lock 1,
      .resume 1 (replyOf false), .lock 0, .resume 0 (replyOf true)]
  let repeated : List (Action (Fin 2) Machine Outcome) :=
    [.resume 0 loginReply, .resume 0 (replyOf true)]
  have hschedule : ∀ c : Config (Fin 2) Machine Exchange Outcome Exc Remark Json,
      ∀ a ∈ moving ++ repeated, ClientKept c a := by
    simp [moving, repeated, ClientKept]
  obtain ⟨c, c', l₀, l₁, l₂, p₀, p₁, q, hrun, hlater, hhistory, hhistory', hbefore, hended,
      hl₀, hl₁, hl₂, hp₀, hp₁, hq, hcandidate, hcandidate'⟩ : ∃ c c' l₀ l₁ l₂ p₀ p₁ q,
      Config.run (.initial dueMachine fun i => (twoRequests i).run) moving = some c ∧
      Config.run c repeated = some c' ∧
      c.world.history = [.sent 0 l₂, .noted 0 (.failoverReturned true), .released 0,
        .got 0 p₀ (replyOf true), .sent 0 p₀, .locked 0, .noted 1 (.failoverReturned false),
        .released 1, .got 1 p₁ (replyOf false), .sent 1 p₁, .locked 1,
        .noted 1 (.failoverEntered none false), .got 1 l₁ (replyOf false),
        .noted 0 (.failoverEntered none false), .got 0 l₀ (replyOf false), .sent 1 l₁,
        .sent 0 l₀] ∧
      c'.world.history = [.got 0 q (replyOf true), .sent 0 q, .got 0 l₂ loginReply] ++
        c.world.history ∧
      c.result 0 = none ∧ c'.result 0 = some (.ok .null) ∧
      l₀.GoesTo defaultPvePort "nodes" "192.0.2.1" ∧
      l₁.GoesTo defaultPvePort "nodes" "192.0.2.1" ∧
      l₂.GoesTo defaultPvePort "nodes" "192.0.2.2" ∧
      p₀.GoesTo defaultPvePort "nodes" "192.0.2.2" ∧
      p₁.GoesTo defaultPvePort "nodes" "192.0.2.2" ∧
      q.GoesTo defaultPvePort "nodes" "192.0.2.2" ∧
      p₀.purpose = .probe true ∧ p₁.purpose = .probe true := by
    exact ⟨_, _, _, _, _, _, _, _, by and_intros <;> with_unfolding_all rfl⟩
  have hmoved : ∀ before : List (Event (Fin 2) Exchange Outcome Remark),
      .got 0 p₀ (replyOf true) ∈ before → MovedIn before :=
    fun before hgot => ⟨0, p₀, replyOf true, hgot, hcandidate, verdictOf_replyOf true⟩
  have habandons : Along LeavesFirst c'.world.history := by
    rw [hhistory', hhistory]
    refine ⟨leavesFirst_answered hq (audible_ok rfl rfl),
      leavesFirst_sent (.inr (.inr (hmoved _ (by simp)))),
      leavesFirst_answered hl₂ (audible_ok rfl rfl),
      leavesFirst_sent (.inr (.inr (hmoved _ (by simp)))), leavesFirst_other (by simp) (by simp),
      leavesFirst_other (by simp) (by simp), leavesFirst_answered hp₀ (audible_ok rfl rfl),
      leavesFirst_sent (.inr (.inl (by rw [hcandidate]; rfl))),
      leavesFirst_other (by simp) (by simp), leavesFirst_other (by simp) (by simp),
      leavesFirst_other (by simp) (by simp),
      leavesFirst_waiting hp₁ (verdictOf_replyOf false) (by simp [MovedIn, verdictOf_replyOf]),
      leavesFirst_sent (.inr (.inl (by rw [hcandidate']; rfl))),
      leavesFirst_other (by simp) (by simp), leavesFirst_other (by simp) (by simp),
      leavesFirst_silent hl₁ "", leavesFirst_other (by simp) (by simp),
      leavesFirst_silent hl₀ "", leavesFirst_sent (.inl hl₁), leavesFirst_sent (.inl hl₀),
      trivial⟩
  have hlate : Along NoLateRenewal c'.world.history := by
    rw [hhistory', hhistory]
    have hunlocked : ∀ {e : Event (Fin 2) Exchange Outcome Remark} {before},
        (∀ j, e ≠ .locked j) → NoLateRenewal e before :=
      fun hno j heq => absurd heq (hno j)
    refine ⟨hunlocked (by simp), hunlocked (by simp), hunlocked (by simp), hunlocked (by simp),
      hunlocked (by simp), hunlocked (by simp), hunlocked (by simp), along_noLateRenewal ?_⟩
    rintro ⟨j, q, r, hgot, -, hverdict⟩
    have hr : r = replyOf false := by
      simp only [List.mem_cons, reduceCtorEq, false_or, Event.got.injEq, List.not_mem_nil,
        or_false] at hgot
      tauto
    rw [hr, verdictOf_replyOf] at hverdict
    contradiction
  have hreaches := Config.reaches_of_run (fun c a ha => hschedule c a (List.mem_append_left _ ha))
    hrun
  have hreaches' := Config.reaches_of_run
    (fun c a ha => hschedule c a (List.mem_append_right _ ha)) hlater
  have hhere : MovedIn c.world.history := hmoved _ (by rw [hhistory]; simp)
  exact ⟨c, c', hhere, hbefore, hended, renewals_move_once (m := dueMachine) twoRequests
    (loggedIn_coherent _ _) (by decide) hreaches hreaches' habandons hlate hhere⟩

/-- What the two requests do until the client has been moved. -/
def untilMoved : List (Action (Fin 2) Machine Outcome) :=
  [.start 0, .start 1, .resume 0 (replyOf false), .resume 1 (replyOf false), .lock 0,
    .resume 0 (replyOf true)]

/-- The other renewal takes the lock after that, and finds the dead host. -/
def lateRenewal : List (Action (Fin 2) Machine Outcome) :=
  [.lock 1, .resume 1 (replyOf false)]

/-- The second renewal takes the lock after the client has been moved: it leaves the host
that answers, and its request ends in the error of the old one. -/
theorem renewals_move_once_counterexample :
    ¬ ∀ c c', Config.Reaches Config.SchedulerOnly
        (.initial dueMachine fun i => (twoRequests i).run) c →
      Config.Reaches Config.SchedulerOnly c c' → Along LeavesFirst c'.world.history →
      MovedIn c.world.history → c'.world.state.client.host = .ok "192.0.2.2" ∧
        ∀ i e, c.result i = none → c'.result i = some (.error e) → NotLost e := by
  have hschedule : ∀ c : Config (Fin 2) Machine Exchange Outcome Exc Remark Json,
      ∀ a ∈ untilMoved ++ lateRenewal, Config.SchedulerOnly c a := by
    simp [untilMoved, lateRenewal, Config.SchedulerOnly]
  obtain ⟨c, c', l₀, l₁, l₂, p₀, p₁, hrun, hlater, hhistory, hhistory', hbefore, hended,
      hl₀, hl₁, hp₀, hp₁, hcandidate, hcandidate'⟩ : ∃ c c' l₀ l₁ l₂ p₀ p₁,
      Config.run (.initial dueMachine fun i => (twoRequests i).run) untilMoved = some c ∧
      Config.run c lateRenewal = some c' ∧
      c.world.history = [.sent 0 l₂, .noted 0 (.failoverReturned true), .released 0,
        .got 0 p₀ (replyOf true), .sent 0 p₀, .locked 0, .noted 1 (.failoverEntered none false),
        .got 1 l₁ (replyOf false), .noted 0 (.failoverEntered none false),
        .got 0 l₀ (replyOf false), .sent 1 l₁, .sent 0 l₀] ∧
      c'.world.history = [.noted 1 (.failoverReturned false), .released 1,
        .got 1 p₁ (replyOf false), .sent 1 p₁, .locked 1] ++ c.world.history ∧
      c.result 1 = none ∧ c'.result 1 = some (.error (.timeoutError "")) ∧
      l₀.GoesTo defaultPvePort "nodes" "192.0.2.1" ∧
      l₁.GoesTo defaultPvePort "nodes" "192.0.2.1" ∧
      p₀.GoesTo defaultPvePort "nodes" "192.0.2.2" ∧
      p₁.GoesTo defaultPvePort "nodes" "192.0.2.1" ∧
      p₀.purpose = .probe true ∧ p₁.purpose = .probe true := by
    exact ⟨_, _, _, _, _, _, _, by and_intros <;> with_unfolding_all rfl⟩
  have hmoved : ∀ before : List (Event (Fin 2) Exchange Outcome Remark),
      .got 0 p₀ (replyOf true) ∈ before → MovedIn before :=
    fun before hgot => ⟨0, p₀, replyOf true, hgot, hcandidate, verdictOf_replyOf true⟩
  have hprobe : ∀ p : Exchange, p.purpose = .probe true → p.purpose.isProbe = true := by
    intro p hp
    rw [hp]
    rfl
  have habandons : Along LeavesFirst c'.world.history := by
    rw [hhistory', hhistory]
    refine ⟨leavesFirst_other (by simp) (by simp), leavesFirst_other (by simp) (by simp),
      leavesFirst_silent hp₁ "", leavesFirst_sent (.inl hp₁),
      leavesFirst_other (by simp) (by simp),
      leavesFirst_sent (.inr (.inr (hmoved _ (by simp)))),
      leavesFirst_other (by simp) (by simp), leavesFirst_other (by simp) (by simp),
      leavesFirst_answered hp₀ (audible_ok rfl rfl),
      leavesFirst_sent (.inr (.inl (hprobe p₀ hcandidate))),
      leavesFirst_other (by simp) (by simp), leavesFirst_other (by simp) (by simp),
      leavesFirst_silent hl₁ "", leavesFirst_other (by simp) (by simp),
      leavesFirst_silent hl₀ "", leavesFirst_sent (.inl hl₁), leavesFirst_sent (.inl hl₀),
      trivial⟩
  have hreaches := Config.reaches_of_run (fun c a ha => hschedule c a (List.mem_append_left _ ha))
    hrun
  have hreaches' := Config.reaches_of_run
    (fun c a ha => hschedule c a (List.mem_append_right _ ha)) hlater
  intro hall
  have hkept := hall c c' hreaches hreaches' habandons (hmoved _ (by rw [hhistory]; simp))
  exact absurd (hkept.2 1 _ hbefore hended) (by decide)

end AioProxmox
