import AioProxmox.Client.Burst
import AioProxmox.Client.Renewals

/-!
# Client - what a failover that says yes has found

Any number of requests on one client.  Which host is in use while nobody holds the
lock is decided by the probes made so far: the last candidate that did not stay
silent, for a search that asks in vain goes back to where it began.  A call that meets
another host than the one it failed on takes that for a move and says yes, whether or
not the search it owes this to has found anybody.

Main results:

- Definitions {lit}`InUse` and {lit}`Answering`: the host in use and the last probe of a
  host, read off a history.
- Theorem {lit}`verdicts_true_iff`: over every run, each failover that says yes leaves a
  host in use whose last probe was answered exactly if each call that meets another host
  than its own meets one like that.
-/

namespace AioProxmox

open Coroutine

section Verdicts

variable {τ : Type}

/-! ## What the probes of a history tell -/

/-- The answer to the last probe of a host. -/
def lastProbe (first : ProxmoxVE) (host : String) :
    List (Event τ Exchange Outcome Remark) → Option Outcome
  | [] => none
  | .got _ q r :: before =>
      if q.purpose.isProbe = true ∧ q.request.url = probeUrl first host then some r
      else lastProbe first host before
  | _ :: before => lastProbe first host before

/-- The last probe of a candidate that was not silent: the search stopped there. -/
def settling : List (Event τ Exchange Outcome Remark) → Option Exchange
  | [] => none
  | .got _ q r :: before =>
      if q.purpose = .probe true ∧ verdictOf r ≠ .ok false then some q else settling before
  | _ :: before => settling before

/-- The host in use while nobody holds the lock. -/
def InUse (first : ProxmoxVE) (history : List (Event τ Exchange Outcome Remark))
    (host : String) : Prop :=
  match settling history with
  | some q => q.request.url = probeUrl first host
  | none => first.host = .ok host

/-- The last probe of a host was answered. -/
def Answering (first : ProxmoxVE) (history : List (Event τ Exchange Outcome Remark))
    (host : String) : Prop :=
  ∃ r, lastProbe first host history = some r ∧ verdictOf r = .ok true

/-- A failover that says yes leaves a host in use whose last probe was answered. -/
def TrueMeansAnswering (first : ProxmoxVE) (e : Event τ Exchange Outcome Remark)
    (before : List (Event τ Exchange Outcome Remark)) : Prop :=
  ∀ i, e = .noted i (.failoverReturned true) →
    ∃ host, InUse first before host ∧ Answering first before host

/-- A call that takes the lock and finds another host in use than the one it failed on
finds one whose last probe was answered. -/
def FindsAnswering [DecidableEq τ] (first : ProxmoxVE) (e : Event τ Exchange Outcome Remark)
    (before : List (Event τ Exchange Outcome Remark)) : Prop :=
  ∀ i fromHost verifyCurrent host, e = .locked i →
    lastEntered i before = some (some fromHost, verifyCurrent) → InUse first before host →
    host ≠ fromHost → Answering first before host

variable {first : ProxmoxVE} {i : τ} {host : String}
  {w w' : World τ Machine Exchange Outcome Remark} {e : Event τ Exchange Outcome Remark}
  {before history history' : List (Event τ Exchange Outcome Remark)}

/-- One host is in use. -/
theorem InUse.unique {a b : String} (ha : InUse first history a) (hb : InUse first history b) :
    a = b := by
  unfold InUse at ha hb
  cases hsettled : settling history with
  | some q =>
      rw [hsettled] at ha hb
      exact addressOf_injective (ha.symm.trans hb)
  | none =>
      rw [hsettled] at ha hb
      exact Except.ok.inj (ha.symm.trans hb)

/-- The event is no answer to a probe. -/
def NoProbe (e : Event τ Exchange Outcome Remark) : Prop :=
  ∀ j q r, e = .got j q r → q.purpose.isProbe = false

/-- Both histories tell the same. -/
structure SameProbes (first : ProxmoxVE)
    (history history' : List (Event τ Exchange Outcome Remark)) : Prop where
  settling : settling history' = settling history
  lastProbe : ∀ host, lastProbe first host history' = lastProbe first host history

/-- A history has its own probes. -/
theorem SameProbes.refl (first : ProxmoxVE) (history : List (Event τ Exchange Outcome Remark)) :
    SameProbes first history history :=
  ⟨rfl, fun _ => rfl⟩

/-- Histories with the same probes may be compared in turn. -/
theorem SameProbes.trans {history'' : List (Event τ Exchange Outcome Remark)}
    (h₁ : SameProbes first history history') (h₂ : SameProbes first history' history'') :
    SameProbes first history history'' :=
  ⟨h₂.settling.trans h₁.settling, fun host => (h₂.lastProbe host).trans (h₁.lastProbe host)⟩

/-- What is no answer to a probe tells nothing new. -/
theorem sameProbes_cons (he : NoProbe e) : SameProbes first before (e :: before) := by
  cases e with
  | got j q r =>
      have hprobe := he j q r rfl
      constructor
      · refine if_neg fun h => ?_
        rw [h.1] at hprobe
        contradiction
      · intro host
        refine if_neg fun h => ?_
        rw [h.1] at hprobe
        contradiction
  | sent j q => exact ⟨rfl, fun _ => rfl⟩
  | noted j e => exact ⟨rfl, fun _ => rfl⟩
  | locked j => exact ⟨rfl, fun _ => rfl⟩
  | released j => exact ⟨rfl, fun _ => rfl⟩

/-- Histories with the same probes have the same host in use. -/
theorem SameProbes.inUse (h : SameProbes first history history') :
    InUse first history' host ↔ InUse first history host := by
  unfold InUse
  rw [h.settling]

/-- Histories with the same probes have the same hosts answering. -/
theorem SameProbes.answering (h : SameProbes first history history') :
    Answering first history' host ↔ Answering first history host := by
  unfold Answering
  rw [h.lastProbe]

/-- A silent candidate is not used. -/
theorem inUse_silent {q : Exchange} {r : Outcome} (hr : verdictOf r = .ok false) :
    InUse first (.got i q r :: before) host ↔ InUse first before host := by
  have hsame : settling (.got i q r :: before) = settling before :=
    if_neg fun h => h.2 hr
  unfold InUse
  rw [hsame]

/-- Any other is. -/
theorem inUse_settled {q : Exchange} {r : Outcome} (hcandidate : q.purpose = .probe true)
    (hr : verdictOf r ≠ .ok false) (hurl : q.request.url = probeUrl first host) :
    InUse first (.got i q r :: before) host := by
  have hsettled : settling (.got i q r :: before) = some q := if_pos ⟨hcandidate, hr⟩
  unfold InUse
  rw [hsettled]
  exact hurl

/-- The probe of the host in use does not change it. -/
theorem inUse_current {q : Exchange} {r : Outcome} (hcurrent : q.purpose = .probe false) :
    InUse first (.got i q r :: before) host ↔ InUse first before host := by
  have hsame : settling (.got i q r :: before) = settling before := by
    refine if_neg fun h => ?_
    rw [hcurrent] at h
    exact absurd h.1 (by simp)
  unfold InUse
  rw [hsame]

/-- A host that has just answered is answering. -/
theorem answering_answered {q : Exchange} {r : Outcome} (hprobe : q.purpose.isProbe = true)
    (hurl : q.request.url = probeUrl first host) (hr : verdictOf r = .ok true) :
    Answering first (.got i q r :: before) host :=
  ⟨r, if_pos ⟨hprobe, hurl⟩, hr⟩

variable [DecidableEq τ]

/-! ## The discipline -/

/-- So far each yes meant an answering host exactly if each call that met another host
than its own met an answering one. -/
def Balanced (first : ProxmoxVE) (history : List (Event τ Exchange Outcome Remark)) : Prop :=
  Along (TrueMeansAnswering first) history ↔ Along (FindsAnswering first) history

/-- What holds whenever all tasks are suspended. -/
structure VerdictsKept (first : ProxmoxVE) (w : World τ Machine Exchange Outcome Remark) :
    Prop where
  serves : Serves first w.state.client
  balanced : Balanced first w.history

/-- Only a call that holds the lock moves the client or probes. -/
def verdictDiscipline (first : ProxmoxVE) : Discipline τ Machine Exchange Outcome Remark where
  assume _ := True
  environment _ s s' := s'.client = s.client
  suspended := VerdictsKept first
  free w := ∃ host, w.state.client.host = .ok host ∧ InUse first w.history host
  rely j held w w' := w.GrowsWithout j w' ∧ (held = true →
    w'.state.client.withoutTokens = w.state.client.withoutTokens ∧
      SameProbes first w.history w'.history)
  assume_tail _ _ _ := trivial
  rely_refl _ _ w := ⟨World.GrowsWithout.refl w, fun _ => ⟨rfl, SameProbes.refl first _⟩⟩
  rely_trans _ _ _ _ _ h₁ h₂ :=
    ⟨h₁.1.trans h₂.1, fun hheld =>
      ⟨(h₂.2 hheld).1.trans (h₁.2 hheld).1, (h₁.2 hheld).2.trans (h₂.2 hheld).2⟩⟩
  rely_weaken _ _ _ h := ⟨h.1, fun hheld => absurd hheld (by decide)⟩
  environment_suspended _ _ _ h hs := ⟨by simpa only [h] using hs.serves, hs.balanced⟩
  environment_rely _ _ w _ h _ :=
    ⟨World.GrowsWithout.refl w, fun _ => ⟨by rw [h], SameProbes.refl first _⟩⟩
  environment_free _ _ h _ hfree := by simpa only [h] using hfree

/-- Only taking the lock and saying yes matter. -/
theorem Balanced.cons (h : Balanced first before)
    (htrue : TrueMeansAnswering first e before) (hfinds : FindsAnswering first e before) :
    Balanced first (e :: before) := by
  unfold Balanced
  rw [along_cons, along_cons]
  exact ⟨fun hall => ⟨hfinds, h.mp hall.2⟩, fun hall => ⟨htrue, h.mpr hall.2⟩⟩

/-- The event neither takes the lock nor says yes. -/
def Idle (e : Event τ Exchange Outcome Remark) : Prop :=
  (∀ i, e ≠ .locked i) ∧ ∀ i, e ≠ .noted i (.failoverReturned true)

omit [DecidableEq τ] in
theorem idle_sent (i : τ) (q : Exchange) : Idle (.sent i q) :=
  ⟨by simp, by simp⟩

omit [DecidableEq τ] in
theorem idle_got (i : τ) (q : Exchange) (r : Outcome) : Idle (.got i q r) :=
  ⟨by simp, by simp⟩

/-- An idle event keeps the balance. -/
theorem Balanced.idle (h : Balanced first before) (he : Idle e) : Balanced first (e :: before) :=
  h.cons (fun i heq => absurd heq (he.2 i)) fun i _ _ _ heq => absurd heq (he.1 i)

/-- An idle event keeps the verdicts true. -/
theorem VerdictsKept.log (h : VerdictsKept first w) (he : Idle e) :
    VerdictsKept first (w.log e) :=
  ⟨h.serves, h.balanced.idle he⟩

/-- Without the lock a task may log what is no answer to a probe. -/
theorem allows_verdict (hactor : e.actor = i) (he : NoProbe e) :
    (verdictDiscipline first).Allows i false w (w.log e) where
  others j hj := ⟨World.GrowsWithout.log w (by rw [hactor]; exact hj.symm),
    fun _ => ⟨rfl, sameProbes_cons he⟩⟩
  free := by
    rintro - ⟨host, hhost, huse⟩
    exact ⟨host, hhost, (sameProbes_cons he).inUse.mpr huse⟩

/-- The lock's owner may log anything of its own and put any host in use. -/
theorem allows_searcher (hgrows : w'.history = w.history ∨ ∃ e, e.actor = i ∧
    w'.history = e :: w.history) :
    (verdictDiscipline first).Allows i true w w' where
  others j hj := ⟨.of_one hgrows hj, fun hheld => absurd hheld (by decide)⟩
  free hheld := absurd hheld (by decide)

/-- An exchange of a task without the lock. -/
theorem logs_verdict (h : VerdictsKept first w) {q : Exchange}
    (hprobe : q.purpose.isProbe = false)
    {K : Outcome → World τ Machine Exchange Outcome Remark → Prop}
    (hK : ∀ r w₃, VerdictsKept first w₃ → K r w₃) :
    (verdictDiscipline first).Logs i false w (.sent i q) fun w₁ => VerdictsKept first w₁ ∧
      ∀ w₂ r, (verdictDiscipline first).rely i false w₁ w₂ → VerdictsKept first w₂ →
        (verdictDiscipline first).Logs i false w₂ (.got i q r) (K r) := by
  intro _
  refine ⟨allows_verdict rfl (fun _ _ _ heq => by cases heq), h.log (idle_sent i q),
    fun w₂ r _ hs _ => ⟨allows_verdict rfl (fun _ _ _ heq => ?_), hK r _ (hs.log (idle_got i q r))⟩⟩
  cases heq
  exact hprobe

/-- What a task without the lock ends in: no lost host where no headers can be built. -/
abbrev LostIfBuilt (first : ProxmoxVE) (e : Exc) : Prop :=
  first.auth.headersError ≠ none → e.isLostHost = false

/-- The logins of any call. -/
theorem verdict_logins : Logins (verdictDiscipline first) i false (VerdictsKept first)
    (LostIfBuilt first) where
  errors := ⟨fun _ he _ => Exc.isLookup_isLostHost he, fun _ _ => rfl⟩
  tokens w s h hframe := by
    rcases h.serves.tokens (hframe : s.client.withoutTokens = _) with ⟨hserves, hsame⟩
    refine ⟨⟨fun _ _ => ⟨⟨[], rfl, by simp⟩, fun _ => ⟨hframe, SameProbes.refl first _⟩⟩, ?_⟩,
      hserves, h.balanced⟩
    rintro - ⟨host, hhost, huse⟩
    exact ⟨host, hsame.trans hhost, huse⟩
  remarks w e h he _ := by
    refine ⟨allows_verdict rfl (by simp [NoProbe]), h.log ⟨by simp, fun j heq => ?_⟩⟩
    cases heq
    rcases he with he | he <;> contradiction
  posts w q auth h hauth hlogin hurl := by
    have hheaders : first.auth.headersError = none := by
      rw [← h.serves.headers, hauth]
      rfl
    refine logs_verdict h (Purpose.isProbe_of_isLogin hlogin) fun r w₃ h₃ => ⟨h₃, ?_⟩
    exact ⟨fun _ _ hunbuilt => absurd hheaders hunbuilt,
      fun _ _ _ _ hunbuilt => absurd hheaders hunbuilt⟩

/-- A sending of the caller's request. -/
theorem send_upholds_verdict (method path : String) (jsonData params : Option Dict) :
    Co.Upholds (verdictDiscipline first) i false (VerdictsKept first) (LostIfBuilt first)
      (requestOnce .request method path jsonData params none) := by
  intro w h
  refine wp_requestOnce (fun e he => ⟨rfl, h, fun e' heq _ => ?_⟩) fun request hheaders _ => ?_
  · cases heq
    rcases (Auth.headersError_keyError he).2 with ⟨key, rfl⟩
    rfl
  · rw [h.serves.headers] at hheaders
    exact logs_verdict h rfl fun r w₃ h₃ => ⟨rfl, h₃, fun _ _ hunbuilt => absurd hheaders hunbuilt⟩

/-! ## The search -/

/-- A probe of the host in use or of the candidate put in its place. -/
theorem wp_answers_verdict {candidate : Bool} {Q : Ends τ Bool}
    (hheaders : first.auth.headersError = none) (h : VerdictsKept first w)
    (hhost : w.state.client.host = .ok host)
    (hQ : ∀ (q : Exchange) (r : Outcome) (w₂ : World τ Machine Exchange Outcome Remark),
      q.purpose = .probe candidate → q.request.url = probeUrl first host →
      SameProbes first w.history w₂.history → VerdictsKept first (w₂.log (.got i q r)) →
      w₂.state.client.host = .ok host → Q true (verdictOf r) (w₂.log (.got i q r))) :
    (answers candidate).wp (verdictDiscipline first) i true Q w := by
  refine wp_answers (fun e he => ?_) fun request _ hurl => ?_
  · rw [h.serves.headers, hheaders] at he
    contradiction
  · let q : Exchange := ⟨.probe candidate, request⟩
    have hprobed : q.request.url = probeUrl first host := by
      rw [h.serves.baseUrl hhost] at hurl
      exact hurl
    intro _
    refine ⟨allows_searcher (.inr ⟨_, rfl, rfl⟩), h.log (idle_sent i q), fun w₂ r hr hs _ => ?_⟩
    rcases hr.2 rfl with ⟨hsame, hprobes⟩
    have hhost₂ : w₂.state.client.host = .ok host := (h.serves.tokens hsame).2.trans hhost
    refine ⟨allows_searcher (.inr ⟨_, rfl, rfl⟩), ⟨host, hhost₂⟩, ?_⟩
    have hsent : SameProbes first w.history (.sent i q :: w.history) :=
      sameProbes_cons fun _ _ _ heq => by cases heq
    exact hQ q r w₂ rfl hprobed (hsent.trans hprobes) (hs.log (idle_got i q r)) hhost₂

/-- How a search ends: the host in use is the one the probes tell, and it has just
answered where the search says that it moved. -/
structure SearchSettled (first : ProxmoxVE) (r : Except Exc Bool)
    (w : World τ Machine Exchange Outcome Remark) : Prop where
  kept : VerdictsKept first w
  free : ∃ host, w.state.client.host = .ok host ∧ InUse first w.history host
  found : r = .ok true → ∃ host, InUse first w.history host ∧ Answering first w.history host

/-- The walk from a host that the probes tell. -/
theorem wp_walk_verdict {start : Nat} {origin : String}
    (hheaders : first.auth.headersError = none) (hstart : first.hosts[start]? = some origin)
    (offsets : List Nat) (h : VerdictsKept first w) (huse : InUse first w.history origin) :
    (walk start offsets).wp (verdictDiscipline first) i true
      (fun held r w' => held = true ∧ SearchSettled first r w') w := by
  have hlt : ∀ {client : ProxmoxVE}, Serves first client → start < client.hosts.length := by
    intro client h
    rw [h.hosts]
    exact (List.getElem?_eq_some_iff.mp hstart).1
  have hplaced : ∀ {w : World τ Machine Exchange Outcome Remark} {index : Nat} {host : String},
      VerdictsKept first w → w.state.client.hosts[index]? = some host →
      VerdictsKept first { w with state := w.state.placedAt index host } :=
    fun h hhost => ⟨h.serves.placedAt hhost, h.balanced⟩
  refine wp_walk (I := fun _ w => VerdictsKept first w ∧ InUse first w.history origin)
    ?_ ?_ ?_ ?_ offsets ⟨h, huse⟩
  · intro _ w w₁ w₂ _ h₁ h₂
    exact allows_searcher (.inl (h₂.trans h₁.symm))
  · intro _ w hw
    exact hlt hw.1.serves
  · intro w host ⟨hkept, huse⟩ hback
    have hsame : origin = host := by
      rw [hkept.serves.hosts, hstart] at hback
      exact Option.some.inj hback
    subst hsame
    exact ⟨rfl, hplaced hkept hback, ⟨origin, ProxmoxVE.host_eq_ok_iff.mpr hback, huse⟩, by simp⟩
  · intro _ _ w index host ⟨hkept, huse⟩ _ hhost
    refine wp_answers_verdict hheaders (hplaced hkept hhost)
      (ProxmoxVE.host_eq_ok_iff.mpr hhost) fun q r w₂ hcandidate hurl hsame hkept₂ hhost₂ => ?_
    rcases hverdict : verdictOf r with e | there
    · have hsettled : InUse first (.got i q r :: w₂.history) host :=
        inUse_settled hcandidate (by rw [hverdict]; simp) hurl
      exact ⟨rfl, hkept₂, ⟨host, hhost₂, hsettled⟩, by simp⟩
    · cases there with
      | true =>
          have hsettled : InUse first (.got i q r :: w₂.history) host :=
            inUse_settled hcandidate (by rw [hverdict]; simp) hurl
          refine ⟨hlt hkept₂.serves, ⟨host, hhost₂⟩, rfl, hkept₂, ⟨host, hhost₂, hsettled⟩,
            fun _ => ⟨host, hsettled, answering_answered ?_ hurl hverdict⟩⟩
          rw [hcandidate]
          rfl
      | false => exact ⟨rfl, hkept₂, (inUse_silent hverdict).mpr (hsame.inUse.mpr huse)⟩

/-- The search of a call that met the host it failed on. -/
theorem wp_switchHost_verdict {fromHost : Option String} {verifyCurrent : Bool}
    {current : String} {Q : Ends τ Bool} (hheaders : first.auth.headersError = none)
    (hserves : Serves first w.state.client) (hhost : w.state.client.host = .ok current)
    (huse : InUse first w.history current)
    (hkept : fromHost.any (· != current) = false → VerdictsKept first w)
    (hmoved : fromHost.any (· != current) = true → Q true (.ok true) w)
    (hsearched : ∀ r w', SearchSettled first r w' → Q true r w') :
    (switchHost fromHost verifyCurrent).wp (verdictDiscipline first) i true Q w := by
  refine wp_switchHost hhost hmoved fun hany => ?_
  have hstart : first.hosts[w.state.client.hostIndex]? = some current := by
    rw [← hserves.hosts]
    exact ProxmoxVE.host_eq_ok_iff.mp hhost
  have hwalk : ∀ (w' : World τ Machine Exchange Outcome Remark) (offsets : List Nat),
      VerdictsKept first w' → InUse first w'.history current →
      (walk w.state.client.hostIndex offsets).wp (verdictDiscipline first) i true Q w' := by
    intro w' offsets h' huse'
    apply Co.wp_mono (wp_walk_verdict hheaders hstart offsets h' huse')
    rintro _ r w'' ⟨rfl, hended⟩
    exact hsearched r w'' hended
  cases verifyCurrent with
  | false => exact hwalk w _ (hkept hany) huse
  | true =>
      rw [stillAnswers_true]
      refine wp_answers_verdict hheaders (hkept hany) hhost
        fun q r w₂ hcurrent _ hsame hkept₂ hhost₂ => ?_
      have huse₂ : InUse first (.got i q r :: w₂.history) current :=
        (inUse_current hcurrent).mpr (hsame.inUse.mpr huse)
      rcases verdictOf r with e | there
      · exact hsearched _ _ ⟨hkept₂, ⟨current, hhost₂, huse₂⟩, by simp⟩
      · cases there with
        | true =>
            exact ⟨⟨current, hhost₂⟩,
              hsearched _ _ ⟨hkept₂, ⟨current, hhost₂, huse₂⟩, by simp⟩⟩
        | false => exact hwalk _ _ hkept₂ huse₂

/-- A call that meets another host than its own says yes at once, and that means an
answering host exactly if it met one. -/
theorem Balanced.shortcut {fromHost current : String} {verifyCurrent : Bool}
    (h : Balanced first before) (huse : InUse first before current)
    (hentered : lastEntered i before = some (some fromHost, verifyCurrent))
    (hne : current ≠ fromHost) :
    Balanced first (.noted i (.failoverReturned true) :: .released i :: .locked i :: before) := by
  have hsame : SameProbes first before (.released i :: .locked i :: before) :=
    (sameProbes_cons (by simp [NoProbe])).trans (sameProbes_cons (by simp [NoProbe]))
  have hyes : TrueMeansAnswering first (.noted i (.failoverReturned true))
      (.released i :: .locked i :: before) ↔ Answering first before current := by
    constructor
    · intro hall
      rcases hall i rfl with ⟨host, huse', hanswering⟩
      rw [(hsame.inUse.mp huse').unique huse] at hanswering
      exact hsame.answering.mp hanswering
    · rintro hanswering j -
      exact ⟨current, hsame.inUse.mpr huse, hsame.answering.mpr hanswering⟩
  have hmeets : FindsAnswering first (.locked i) before ↔ Answering first before current := by
    constructor
    · intro hall
      exact hall i fromHost verifyCurrent current rfl hentered huse hne
    · intro hanswering j fromHost' verifyCurrent' host heq _ huse' _
      rw [huse'.unique huse]
      exact hanswering
  have hlocked : TrueMeansAnswering first (.locked i) before := by simp [TrueMeansAnswering]
  have hreleased : TrueMeansAnswering first (.released i) (.locked i :: before) ∧
      FindsAnswering first (.released i) (.locked i :: before) := by
    simp [TrueMeansAnswering, FindsAnswering]
  have hsaid : FindsAnswering first (.noted i (.failoverReturned true))
      (.released i :: .locked i :: before) := by simp [FindsAnswering]
  unfold Balanced at h ⊢
  simp only [along_cons, hyes, hmeets, hlocked, hreleased.1, hreleased.2, hsaid, true_and, h]

/-- A call of {lit}`failover` keeps the balance, whichever host it meets. -/
theorem wp_failover_verdict (hheaders : first.auth.headersError = none)
    (fromHost : Option String) (verifyCurrent : Bool) :
    Co.Upholds (verdictDiscipline first) i false (VerdictsKept first) (LostIfBuilt first)
      (failover fromHost verifyCurrent) := by
  intro w h
  apply wp_failover
  intro _
  refine ⟨allows_verdict rfl (by simp [NoProbe]), h.log ⟨by simp, by simp⟩,
    fun w₁ hr hs hfree _ => ⟨allows_searcher (.inr ⟨_, rfl, rfl⟩), ?_⟩⟩
  rcases hfree with ⟨current, hcurrent, huse⟩
  have hentered : lastEntered i w₁.history = some (fromHost, verifyCurrent) := by
    rw [lastEntered_growsWithout hr.1]
    exact if_pos rfl
  have hlocked : SameProbes first w₁.history (.locked i :: w₁.history) :=
    sameProbes_cons (by simp [NoProbe])
  have hreleased : ∀ history : List (Event τ Exchange Outcome Remark),
      SameProbes first history (.released i :: history) :=
    fun history => sameProbes_cons (by simp [NoProbe])
  refine wp_switchHost_verdict hheaders hs.serves hcurrent (hlocked.inUse.mpr huse)
    (fun hany => ?_) (fun hany => ?_) fun r w₂ hended => ?_
  · -- it met the host it failed on
    refine ⟨hs.serves, hs.balanced.cons (by simp [TrueMeansAnswering]) ?_⟩
    intro j from' verify' host heq hlast huse' hne
    cases heq
    rw [hentered, Option.some.injEq, Prod.mk.injEq] at hlast
    rcases hlast with ⟨rfl, -⟩
    rw [huse'.unique huse] at hne
    simp only [Option.any_some, bne_eq_false_iff_eq] at hany
    exact absurd hany.symm hne
  · -- it met another one, and says yes at once
    refine ⟨rfl, fun _ => ⟨allows_searcher (.inr ⟨_, rfl, rfl⟩), ?_, ?_, by simp⟩⟩
    · exact ⟨current, hcurrent, (hlocked.trans (hreleased _)).inUse.mpr huse⟩
    · intro verdict heq _
      cases heq
      refine ⟨allows_verdict rfl (by simp [NoProbe]), rfl, ⟨hs.serves, ?_⟩, by simp⟩
      cases fromHost with
      | none => contradiction
      | some host =>
          simp only [Option.any_some, bne_iff_ne] at hany
          exact hs.balanced.shortcut huse hentered hany.symm
  · refine ⟨rfl, fun _ => ⟨allows_searcher (.inr ⟨_, rfl, rfl⟩), ?_, ?_, ?_⟩⟩
    · rcases hended.free with ⟨host, hhost, huse'⟩
      exact ⟨host, hhost, (hreleased _).inUse.mpr huse'⟩
    · rintro verdict rfl _
      have hafter := hended.kept.log (e := .released i) ⟨by simp, by simp⟩
      refine ⟨allows_verdict rfl (by simp [NoProbe]), rfl, ⟨hended.kept.serves, ?_⟩, by simp⟩
      refine hafter.balanced.cons (fun j heq => ?_) (by simp [FindsAnswering])
      simp only [Event.noted.injEq, Remark.failoverReturned.injEq] at heq
      rcases heq with ⟨-, rfl⟩
      rcases hended.found rfl with ⟨host, huse', hanswering⟩
      exact ⟨host, (hreleased _).inUse.mpr huse', (hreleased _).answering.mpr hanswering⟩
    · rintro e rfl
      exact ⟨rfl, hended.kept.log ⟨by simp, by simp⟩, fun _ _ hunbuilt => absurd hheaders hunbuilt⟩

/-! ## Whole requests -/

/-- {lit}`failover` keeps the verdicts true where there are peers. -/
theorem failoverIfPeers_upholds_verdict (hheaders : first.auth.headersError = none)
    (fromHost : Option String) (verifyCurrent : Bool) :
    Co.Upholds (verdictDiscipline first) i false (VerdictsKept first) (LostIfBuilt first)
      (failoverIfPeers fromHost verifyCurrent) := by
  refine Co.Upholds.bind (fun w h => ⟨rfl, h, by simp⟩) fun client => ?_
  split_ifs
  · exact Co.Upholds.pure _
  · exact wp_failover_verdict hheaders fromHost verifyCurrent

/-- A request, with both its recoveries. -/
theorem request_upholds_verdict (method path : String) (jsonData params : Option Dict) :
    Co.Upholds (verdictDiscipline first) i false (VerdictsKept first) (LostIfBuilt first)
      (request method path jsonData params) := by
  have hbuilt : ∀ {err : Exc}, LostIfBuilt first err → err.isLostHost = true →
      first.auth.headersError = none := by
    intro err herr hlost
    by_contra hunbuilt
    rw [herr hunbuilt] at hlost
    contradiction
  have hsend : Co.Upholds (verdictDiscipline first) i false (VerdictsKept first)
      (LostIfBuilt first) (requestOnce .request method path jsonData params none) :=
    send_upholds_verdict method path jsonData params
  refine Co.Upholds.bind ((checkAndRefresh_upholds verdict_logins).tryCatch fun err herr => ?_)
    fun _ => Co.Upholds.bind (fun w h => ?_) fun hostBefore => hsend.tryCatch fun err herr => ?_
  · unfold renewElsewhere
    split_ifs with hlost
    · refine (failoverIfPeers_upholds_verdict (hbuilt herr hlost) _ _).bind fun moved => ?_
      split_ifs
      · exact checkAndRefresh_upholds verdict_logins
      · exact Co.Upholds.throw herr
    · exact Co.Upholds.throw herr
  · refine ⟨rfl, h, fun e he _ => ?_⟩
    exact Exc.isLookup_isLostHost (ProxmoxVE.hostAt_raises he)
  · unfold recover
    split
    · refine Co.Upholds.bind (fun w h => ⟨rfl, h, by simp⟩) fun client => ?_
      split_ifs
      · exact Co.Upholds.throw herr
      · exact (relogin_upholds verdict_logins).bind fun _ => hsend
    · split_ifs with hlost
      · refine (failoverIfPeers_upholds_verdict (hbuilt herr hlost) _ _).bind fun moved => ?_
        split_ifs
        · exact hsend
        · exact Co.Upholds.throw herr
      · exact Co.Upholds.throw herr

end Verdicts

/-! ## Every run -/

/-- In every run of any requests the probes made so far tell the host in use while nobody
holds the lock, and each failover that says yes leaves one whose last probe was answered
exactly if each call that meets another host than its own meets one whose last probe
was. -/
theorem verdicts_true_iff {τ : Type} [DecidableEq τ] {m : Machine} (calls : τ → RequestCall)
    (hm : m.client.Coherent) {c : Config τ Machine Exchange Outcome Exc Remark Json}
    (hrun : Config.Reaches ClientKept (.initial m fun i => (calls i).run) c) :
    (c.holder = none → ∃ host, c.world.state.client.host = .ok host ∧
      InUse m.client c.world.history host) ∧
    (Along (TrueMeansAnswering m.client) c.world.history ↔
      Along (FindsAnswering m.client) c.world.history) := by
  have hlasting : ∀ i, Co.Lasting (verdictDiscipline m.client) i
      (fun held _ w => held = false ∧ VerdictsKept m.client w : Ends τ Json) := by
    intro i
    constructor
    · intro _ _ w h
      exact h.2
    · intro _ _ w₁ w₂ h _ hs
      exact ⟨h.1, hs⟩
  have hstart : VerdictsKept m.client (⟨m, []⟩ : World τ Machine Exchange Outcome Remark) :=
    ⟨Serves.refl hm, Iff.rfl⟩
  have hinit : Config.Respects (verdictDiscipline m.client)
      (fun _ held _ w => held = false ∧ VerdictsKept m.client w)
      (.initial m fun i => (calls i).run) := by
    rcases hstart.serves.exists_host with ⟨host, hhost, -⟩
    apply Config.initial_respects hstart (show ∃ host, _ from ⟨host, hhost, hhost⟩)
    intro i w _ hs
    apply Co.wp_mono (request_upholds_verdict _ _ _ _ w hs)
    intro _ r w' hended
    exact ⟨hended.1, hended.2.1⟩
  have hc := hinit.reaches hlasting (fun c f hf => hf) hrun trivial
  exact ⟨hc.free, hc.suspended.balanced⟩

/-- An answering host has answered. -/
theorem Answering.got {τ : Type} {first : ProxmoxVE} {host : String}
    {history : List (Event τ Exchange Outcome Remark)} (h : Answering first history host) :
    ∃ j q r, .got j q r ∈ history ∧ verdictOf r = .ok true := by
  rcases h with ⟨r, hlast, hr⟩
  induction history with
  | nil => contradiction
  | cons e before ih =>
      have hrest : lastProbe first host before = some r →
          ∃ j q r, .got j q r ∈ e :: before ∧ verdictOf r = .ok true := by
        intro hlast
        rcases ih hlast with ⟨j, q, r', hgot, hr'⟩
        exact ⟨j, q, r', List.mem_cons_of_mem e hgot, hr'⟩
      cases e with
      | got j q r' =>
          rw [lastProbe] at hlast
          split_ifs at hlast
          · cases hlast
            exact ⟨j, q, r, List.mem_cons_self, hr⟩
          · exact hrest hlast
      | sent j q => exact hrest hlast
      | noted j e => exact hrest hlast
      | locked j => exact hrest hlast
      | released j => exact hrest hlast

/-- Of two requests that failed on the first host, one moves the client and the other
finds the host that answered. -/
theorem verdicts_true_iff_witness :
    ∃ c : Config (Fin 2) Machine Exchange Outcome Exc Remark Json,
      .noted 1 (.failoverReturned true) ∈ c.world.history ∧
      Along (TrueMeansAnswering (.withToken ["192.0.2.1", "192.0.2.2"])) c.world.history := by
  let schedule : List (Action (Fin 2) Machine Outcome) :=
    [.start 0, .start 1, .resume 0 (replyOf false), .resume 1 (replyOf false), .lock 0,
      .resume 0 (replyOf false), .resume 0 (replyOf true), .lock 1]
  have hschedule : ∀ c : Config (Fin 2) Machine Exchange Outcome Exc Remark Json,
      ∀ a ∈ schedule, ClientKept c a := by
    simp [schedule, ClientKept]
  obtain ⟨c, q₁, q₂, q₃, q₄, p₁, p₂, hrun, hhistory, hq₁, hq₂, hp₁, hp₂⟩ :
      ∃ c q₁ q₂ q₃ q₄ p₁ p₂,
      Config.run (.initial ⟨.withToken ["192.0.2.1", "192.0.2.2"], 0⟩
        fun i => (twoRequests i).run) schedule = some c ∧
      c.world.history = [.sent 1 q₄, .noted 1 (.failoverReturned true), .released 1, .locked 1,
        .sent 0 q₃, .noted 0 (.failoverReturned true), .released 0, .got 0 p₂ (replyOf true),
        .sent 0 p₂, .got 0 p₁ (replyOf false), .sent 0 p₁, .locked 0,
        .noted 1 (.failoverEntered (some "192.0.2.1") true), .got 1 q₂ (replyOf false),
        .noted 0 (.failoverEntered (some "192.0.2.1") true), .got 0 q₁ (replyOf false),
        .sent 1 q₂, .sent 0 q₁] ∧
      q₁.purpose = .request ∧ q₂.purpose = .request ∧ p₁.purpose = .probe false ∧
      p₂.purpose = .probe true :=
    ⟨_, _, _, _, _, _, _, by and_intros <;> with_unfolding_all rfl⟩
  refine ⟨c, by rw [hhistory]; simp, ?_⟩
  refine (verdicts_true_iff (m := ⟨.withToken ["192.0.2.1", "192.0.2.2"], 0⟩) twoRequests
    (withToken_coherent _ _) (Config.reaches_of_run hschedule hrun)).2.mpr ?_
  have hidle : ∀ {e : Event (Fin 2) Exchange Outcome Remark} {before}, (∀ i, e ≠ .locked i) →
      FindsAnswering (.withToken ["192.0.2.1", "192.0.2.2"]) e before :=
    fun he i _ _ _ heq => absurd heq (he i)
  rw [hhistory]
  refine ⟨hidle (by simp), hidle (by simp), hidle (by simp), ?_, hidle (by simp),
    hidle (by simp), hidle (by simp), hidle (by simp), hidle (by simp), hidle (by simp),
    hidle (by simp), ?_, hidle (by simp), hidle (by simp), hidle (by simp), hidle (by simp),
    hidle (by simp), hidle (by simp), trivial⟩
  · -- the second call meets the candidate that has answered
    intro i fromHost verifyCurrent host _ _ huse _
    have hurl : p₂.request.url = probeUrl (.withToken ["192.0.2.1", "192.0.2.2"]) host := by
      simpa [InUse, settling, hp₂, verdictOf_replyOf] using huse
    refine ⟨replyOf true, ?_, verdictOf_replyOf true⟩
    simp [lastProbe, hp₂, hurl, Purpose.isProbe]
  · -- the first one meets the host it failed on
    intro i fromHost verifyCurrent host heq hlast huse hne
    cases heq
    have hfrom : fromHost = "192.0.2.1" := by
      simp [lastEntered] at hlast
      exact hlast.1.symm
    have hfirst : (ProxmoxVE.withToken ["192.0.2.1", "192.0.2.2"]).host = .ok host := by
      simpa [InUse, settling, hq₁, hq₂] using huse
    have hsame : "192.0.2.1" = host := Except.ok.inj hfirst
    exact absurd (hsame.symm.trans hfrom.symm) hne

/-- A request that starts while another one asks the second host, which is silent like
the first: it is told that the client has moved. -/
theorem verdicts_true_counterexample :
    ¬ ∀ c, Config.Reaches Config.SchedulerOnly
        (.initial ⟨.withToken ["192.0.2.1", "192.0.2.2"], 0⟩ fun i => (twoRequests i).run) c →
      Along (TrueMeansAnswering (.withToken ["192.0.2.1", "192.0.2.2"])) c.world.history := by
  let schedule : List (Action (Fin 2) Machine Outcome) :=
    [.start 0, .resume 0 (replyOf false), .lock 0, .resume 0 (replyOf false), .start 1,
      .resume 0 (replyOf false), .resume 1 (replyOf false), .lock 1]
  have hschedule : ∀ c : Config (Fin 2) Machine Exchange Outcome Exc Remark Json,
      ∀ a ∈ schedule, Config.SchedulerOnly c a := by
    simp [schedule, Config.SchedulerOnly]
  obtain ⟨c, q₁, q₂, q₃, p₁, p₂, hrun, hhistory⟩ : ∃ c q₁ q₂ q₃ p₁ p₂,
      Config.run (.initial ⟨.withToken ["192.0.2.1", "192.0.2.2"], 0⟩
        fun i => (twoRequests i).run) schedule = some c ∧
      c.world.history = [.sent 1 q₃, .noted 1 (.failoverReturned true), .released 1, .locked 1,
        .noted 1 (.failoverEntered (some "192.0.2.2") true), .got 1 q₂ (replyOf false),
        .noted 0 (.failoverReturned false), .released 0, .got 0 p₂ (replyOf false),
        .sent 1 q₂, .sent 0 p₂, .got 0 p₁ (replyOf false), .sent 0 p₁, .locked 0,
        .noted 0 (.failoverEntered (some "192.0.2.1") true), .got 0 q₁ (replyOf false),
        .sent 0 q₁] :=
    ⟨_, _, _, _, _, _, by and_intros <;> with_unfolding_all rfl⟩
  intro hall
  have hkept := hall c (Config.reaches_of_run hschedule hrun)
  rw [hhistory] at hkept
  rcases hkept.2.1 1 rfl with ⟨host, -, hanswering⟩
  rcases hanswering.got with ⟨j, q, r, hgot, hr⟩
  have hsilent : r = replyOf false := by
    simp only [List.mem_cons, List.not_mem_nil, or_false, reduceCtorEq, false_or,
      Event.got.injEq] at hgot
    rcases hgot with ⟨-, -, hr'⟩ | ⟨-, -, hr'⟩ | ⟨-, -, hr'⟩ | ⟨-, -, hr'⟩
    · exact hr'
    · exact hr'
    · exact hr'
    · exact hr'
  rw [hsilent, verdictOf_replyOf] at hr
  exact absurd (Except.ok.inj hr) (by decide)

end AioProxmox
