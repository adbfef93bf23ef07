import AioProxmox.Client.Rules

/-!
# Client - news during a failover

{lit}`learn_hosts` takes no lock, so it may run at any suspension point of a
failover, which remembers an index over them.  Where the news leaves the host that
was in use at the start at its index, list, index and URLs agree at every step
and a failover that does not move ends where it began; where it does not, the
remembered index can be out of range or name another host.

Main results:

- Theorem {lit}`failover_selection`: every run of a failover interleaved with
  such news.
-/

namespace AioProxmox

open Coroutine Collections

/-! ## What news leaves alone -/

/-- News leaves a coherent client coherent, on the same host and with the same
authentication. -/
theorem learnHosts_coherent {c : ProxmoxVE} (hc : c.Coherent) (hosts : List Json)
    (replace : Bool) :
    ∃ c', c.learnHosts hosts replace = .ok c' ∧ c'.Coherent ∧ c'.host = c.host ∧
      c'.auth = c.auth := by
  rcases hc.host with ⟨current, hcurrent, hurl⟩
  have hhost : c.host = .ok current := ProxmoxVE.host_eq_ok_iff.mpr hcurrent
  let named := ProxmoxVE.keepNew (if replace then c.hosts.take 1 else c.hosts) hosts
  let kept := if current ∈ named then named else named ++ [current]
  have hmem : current ∈ kept := by
    by_cases h : current ∈ named
    · simp [kept, h]
    · simp [kept, h]
  have hget : kept[kept.idxOf current]? = some current := List.getElem?_idxOf hmem
  refine ⟨{ c with hosts := kept, hostIndex := kept.idxOf current }, ?_, ⟨⟨current, hget, hurl⟩,
    hc.auth⟩, ?_, rfl⟩
  · simp only [ProxmoxVE.learnHosts, hhost, bind, Except.bind, pure, Except.pure]
    rfl
  · rw [hhost]
    exact ProxmoxVE.host_eq_ok_iff.mpr hget

/-! ## Runs with news -/

/-- A failover that runs while others call {lit}`learn_hosts`. -/
abbrev FailoverRun :=
  Config Unit Machine Exchange Outcome Exc Remark Bool

/-- Calls of {lit}`learn_hosts` run only where the failover waits under the lock. -/
def NewsWhileWaiting (c : FailoverRun) : Action Unit Machine Outcome → Prop
  | .environment f =>
      c.holder = some () ∧
        ∃ hosts replace, f = fun m => HostStep.apply m (.learn hosts replace)
  | _ => True

/-- The host in use at the start stays where it is in the list. -/
def StartUndisturbed (m : Machine) (c : FailoverRun) : Action Unit Machine Outcome → Prop
  | .environment f =>
      (f c.world.state).client.hosts[m.client.hostIndex]? = m.client.hosts[m.client.hostIndex]?
  | _ => True

/-- List, index and URLs agree; an {lit}`IndexError` is one that a probe ended in;
and a failover that says it did not move is where it began. -/
structure SelectionKept (m : Machine) (c : FailoverRun) : Prop where
  coherent : c.world.state.client.Coherent
  noIndexError : ∀ text, c.result () = some (.error (.indexError text)) →
    ∃ q r, .got () q r ∈ c.world.history ∧
      (r >>= readResponse "version") = .error (.indexError text)
  stayed : c.result () = some (.ok false) → c.world.state.client.host = m.client.host

/-! ## The discipline -/

/-- What a waiting failover relies on. -/
structure NewsBetween (m m₁ m₂ : Machine) : Prop where
  host : m₂.client.host = m₁.client.host
  auth : m₂.client.auth = m₁.client.auth
  start : m₁.client.hosts[m.client.hostIndex]? = m.client.hosts[m.client.hostIndex]? →
    m₂.client.hosts[m.client.hostIndex]? = m.client.hosts[m.client.hostIndex]?

/-- No news is news. -/
theorem NewsBetween.refl (m m₁ : Machine) : NewsBetween m m₁ m₁ :=
  ⟨rfl, rfl, id⟩

/-- News after news is news. -/
theorem NewsBetween.trans {m m₁ m₂ m₃ : Machine} (h₁ : NewsBetween m m₁ m₂)
    (h₂ : NewsBetween m m₂ m₃) : NewsBetween m m₁ m₃ :=
  ⟨h₂.host.trans h₁.host, h₂.auth.trans h₁.auth, fun h => h₂.start (h₁.start h)⟩

/-- News on a coherent machine. -/
theorem learn_newsBetween {m m₁ : Machine} (h₁ : m₁.client.Coherent) {hosts : List Json}
    {replace : Bool}
    (hstart : (HostStep.apply m₁ (.learn hosts replace)).client.hosts[m.client.hostIndex]? =
      m.client.hosts[m.client.hostIndex]?) :
    (HostStep.apply m₁ (.learn hosts replace)).client.Coherent ∧
      NewsBetween m m₁ (HostStep.apply m₁ (.learn hosts replace)) := by
  rcases learnHosts_coherent h₁ hosts replace with ⟨c', hlearn, hcoherent, hhost, hauth⟩
  have happly : HostStep.apply m₁ (.learn hosts replace) = { m₁ with client := c' } := by
    simp only [HostStep.apply, hlearn]
  rw [happly] at hstart ⊢
  exact ⟨hcoherent, hhost, hauth, fun _ => hstart⟩

/-- Only the failover itself moves the client; news may come while it waits under
the lock, and nothing before it has taken the lock. -/
def newsDiscipline (m : Machine) : Discipline Unit Machine Exchange Outcome Remark where
  assume _ := True
  environment held m₁ m₂ :=
    held = true ∧ (∃ hosts replace, m₂ = HostStep.apply m₁ (.learn hosts replace)) ∧
      m₂.client.hosts[m.client.hostIndex]? = m.client.hosts[m.client.hostIndex]?
  suspended w := w.state.client.Coherent
  free w := w.state = m ∨ .locked () ∈ w.history
  rely _ _ w w' := w'.history = w.history ∧ NewsBetween m w.state w'.state
  assume_tail _ _ _ := trivial
  rely_refl _ _ w := ⟨rfl, .refl m w.state⟩
  rely_trans _ _ _ _ _ h₁ h₂ := ⟨h₂.1.trans h₁.1, h₁.2.trans h₂.2⟩
  rely_weaken _ _ _ h := h
  environment_suspended _ w _ := by
    rintro ⟨-, ⟨hosts, replace, rfl⟩, hstart⟩ hcoherent
    exact (learn_newsBetween hcoherent hstart).1
  environment_rely _ held w _ := by
    rintro ⟨rfl, ⟨hosts, replace, rfl⟩, hstart⟩ hcoherent
    exact ⟨rfl, (learn_newsBetween hcoherent hstart).2⟩
  environment_free _ _ := by
    rintro ⟨hheld, -⟩
    contradiction

section Rules

variable {m : Machine} {w w' : World Unit Machine Exchange Outcome Remark}

/-- Nobody relies on the failover but itself. -/
theorem allows_locked (h : .locked () ∈ w'.history) (held : Bool) :
    (newsDiscipline m).Allows () held w w' where
  others _ hj := absurd rfl hj
  free _ _ := .inr h

/-- While the lock is taken every event is let pass. -/
theorem logs_locked {held : Bool} {e : Event Unit Exchange Outcome Remark}
    {K : World Unit Machine Exchange Outcome Remark → Prop} (h : .locked () ∈ w.history)
    (hK : K (w.log e)) : (newsDiscipline m).Logs () held w e K :=
  fun _ => ⟨allows_locked (List.mem_cons_of_mem e h) held, hK⟩

/-- Where the failover stands once it has taken the lock. -/
structure Searching (m : Machine) (w : World Unit Machine Exchange Outcome Remark) : Prop where
  locked : .locked () ∈ w.history
  coherent : w.state.client.Coherent
  start : w.state.client.hosts[m.client.hostIndex]? = m.client.hosts[m.client.hostIndex]?

/-- How its search may end. -/
structure SearchEnded (m : Machine) (r : Except Exc Bool)
    (w : World Unit Machine Exchange Outcome Remark) : Prop where
  locked : .locked () ∈ w.history
  coherent : w.state.client.Coherent
  noIndexError : ∀ text, r = .error (.indexError text) → ∃ q reply,
    .got () q reply ∈ w.history ∧
      (reply >>= readResponse "version") = .error (.indexError text)
  stayed : r = .ok false → w.state.client.host = m.client.host

/-- A verdict that raises is the exception that reading the answer raises. -/
theorem verdictOf_error {reply : Outcome} {e : Exc} (h : verdictOf reply = .error e) :
    (reply >>= readResponse "version") = .error e := by
  unfold verdictOf at h
  cases hread : reply >>= readResponse "version" with
  | ok v =>
      rw [hread] at h
      contradiction
  | error e' =>
      rw [hread] at h
      simp only at h
      split_ifs at h
      cases h
      rfl

/-- A probe leaves the failover where it stands, or ends it in the error of the
probe. -/
theorem wp_answers_news {candidate : Bool} {Q : Ends Unit Bool} (hw : Searching m w)
    (hok : ∀ there w', Searching m w' → w'.state.client.host = w.state.client.host →
      Q true (.ok there) w')
    (herror : ∀ e w', SearchEnded m (.error e) w' → Q true (.error e) w') :
    (answers candidate).wp (newsDiscipline m) () true Q w := by
  refine wp_answers (fun e he => ?_) fun request _ _ => ?_
  · rcases (Auth.headersError_keyError he).2 with ⟨key, rfl⟩
    exact herror _ _ ⟨hw.locked, hw.coherent, by simp, by simp⟩
  · refine logs_locked hw.locked ⟨hw.coherent, fun w₂ r hr hs => ?_⟩
    have hsaid : w₂.history = .sent () ⟨.probe candidate, request⟩ :: w.history := hr.1
    have hlocked : .locked () ∈ w₂.history := by
      rw [hsaid]
      exact List.mem_cons_of_mem _ hw.locked
    refine logs_locked hlocked ⟨hs.inRange.host, ?_⟩
    let w₃ := w₂.log (.got () ⟨.probe candidate, request⟩ r)
    have hlocked₃ : .locked () ∈ w₃.history := List.mem_cons_of_mem _ hlocked
    rcases hverdict : verdictOf r with e | there
    · refine herror e w₃ ⟨hlocked₃, hs, fun text he => ?_, by simp⟩
      cases he
      exact ⟨_, r, List.mem_cons_self, verdictOf_error hverdict⟩
    · exact hok there w₃ ⟨hlocked₃, hs, hr.2.start hw.start⟩ hr.2.host

/-- The walk, from anywhere in it. -/
theorem wp_walk_news {first : String}
    (hfirst : m.client.hosts[m.client.hostIndex]? = some first) (offsets : List Nat)
    (hw : Searching m w) :
    (walk m.client.hostIndex offsets).wp (newsDiscipline m) () true
      (fun held r w' => held = true ∧ SearchEnded m r w') w := by
  have hstart : ∀ {w : World Unit Machine Exchange Outcome Remark}, Searching m w →
      w.state.client.hosts[m.client.hostIndex]? = some first :=
    fun hw => hw.start.trans hfirst
  refine wp_walk (I := fun _ w => Searching m w) ?_ ?_ ?_ ?_ offsets hw
  · intro _ w w₁ w₂ hw _ h₂
    apply allows_locked
    rw [h₂]
    exact hw.locked
  · intro _ w hw
    exact (List.getElem?_eq_some_iff.mp (hstart hw)).1
  · intro w host hw hhost
    refine ⟨rfl, hw.locked, ProxmoxVE.placedAt_coherent hhost, by simp, fun _ => ?_⟩
    rw [ProxmoxVE.host_eq_ok_iff.mpr hfirst]
    exact ProxmoxVE.host_eq_ok_iff.mpr (hw.start.trans hfirst)
  · intro _ _ w index host hw _ hhost
    have hplaced : Searching m { w with state := w.state.placedAt index host } :=
      ⟨hw.locked, ProxmoxVE.placedAt_coherent hhost, hw.start⟩
    refine wp_answers_news hplaced (fun there w' hw' _ => ?_) fun e w' hended => ⟨rfl, hended⟩
    cases there with
    | true =>
        refine ⟨(List.getElem?_eq_some_iff.mp (hstart hw')).1, hw'.coherent.inRange.host, rfl,
          hw'.locked, hw'.coherent, by simp, by simp⟩
    | false => exact ⟨rfl, hw'⟩

/-- The search that failover makes, from the host in use when it took the lock. -/
theorem wp_switchHost_news (hm : m.client.Coherent) (fromHost : Option String)
    (verifyCurrent : Bool) (hstate : w.state = m) (hlocked : .locked () ∈ w.history) :
    (switchHost fromHost verifyCurrent).wp (newsDiscipline m) () true
      (fun held r w' => held = true ∧ SearchEnded m r w') w := by
  rcases hm.host with ⟨first, hfirst, -⟩
  have hhost : w.state.client.host = .ok first := by
    rw [hstate]
    exact ProxmoxVE.host_eq_ok_iff.mpr hfirst
  have hw : Searching m w := ⟨hlocked, by rw [hstate]; exact hm, by rw [hstate]⟩
  refine wp_switchHost hhost (fun _ => ?_) fun _ => ?_
  · exact ⟨rfl, hlocked, hw.coherent, by simp, by simp⟩
  · rw [hstate]
    cases verifyCurrent with
    | false => exact wp_walk_news hfirst _ hw
    | true =>
        rw [stillAnswers_true]
        refine wp_answers_news hw (fun there w' hw' hsame => ?_) fun e w' hended => ⟨rfl, hended⟩
        cases there with
        | true =>
            refine ⟨hw'.coherent.inRange.host, rfl, hw'.locked, hw'.coherent, by simp, fun _ => ?_⟩
            rw [hsame, hstate]
        | false => exact wp_walk_news hfirst _ hw'

/-- The whole of failover. -/
theorem wp_failover_news (hm : m.client.Coherent) (fromHost : Option String)
    (verifyCurrent : Bool) (hcoherent : w.state.client.Coherent) (hnew : w.history = []) :
    (failover fromHost verifyCurrent).wp (newsDiscipline m) () false
      (fun _ r w' => SearchEnded m r w') w := by
  apply wp_failover
  intro _
  have hkept : (newsDiscipline m).Allows () false w
      (w.log (.noted () (.failoverEntered fromHost verifyCurrent))) :=
    ⟨fun _ hj => absurd rfl hj, fun _ hfree => hfree.imp_right (List.mem_cons_of_mem _)⟩
  refine ⟨hkept, hcoherent, fun w₁ hr _ hfree _ => ?_⟩
  have hsaid : w₁.history = [.noted () (.failoverEntered fromHost verifyCurrent)] := by
    rw [hr.1, World.log_history, hnew]
  have hstate₁ : w₁.state = m := by
    rcases hfree with hsame | hlocked
    · exact hsame
    · rw [hsaid] at hlocked
      simp at hlocked
  refine ⟨allows_locked List.mem_cons_self true, ?_⟩
  apply Co.wp_mono (wp_switchHost_news hm fromHost verifyCurrent (w := w₁.log (.locked ()))
    hstate₁ List.mem_cons_self)
  rintro _ r w₂ ⟨rfl, hended⟩
  have hafter : ∀ {w' : World Unit Machine Exchange Outcome Remark}
      (e : Event Unit Exchange Outcome Remark), SearchEnded m r w' →
      SearchEnded m r (w'.log e) := by
    intro w' e hw'
    refine ⟨List.mem_cons_of_mem e hw'.locked, hw'.coherent, fun text he => ?_, hw'.stayed⟩
    rcases hw'.noIndexError text he with ⟨q, reply, hgot, hread⟩
    exact ⟨q, reply, List.mem_cons_of_mem e hgot, hread⟩
  have hreleased := hafter (.released ()) hended
  refine ⟨rfl, logs_locked hended.locked ⟨.inr hreleased.locked, ?_, ?_⟩⟩
  · rintro verdict rfl
    exact logs_locked hreleased.locked (hafter _ hreleased)
  · rintro e rfl
    exact hreleased

end Rules

/-! ## Every run -/

/-- In every run of a failover with news that leaves the host in use at the start
at its index, list, index and URLs agree at every step, no {lit}`IndexError` is
raised, and a failover that does not move ends where it began. -/
theorem failover_selection {m : Machine} (hm : m.client.Coherent) (fromHost : Option String)
    (verifyCurrent : Bool) {c : FailoverRun}
    (hrun : Config.Reaches (fun c a => NewsWhileWaiting c a ∧ StartUndisturbed m c a)
      (.initial m fun _ => failover fromHost verifyCurrent) c) :
    SelectionKept m c := by
  have hlasting : ∀ i, Co.Lasting (newsDiscipline m) i
      (fun _ r w => SearchEnded m r w : Ends Unit Bool) := by
    intro i
    constructor
    · intro _ r w hw
      exact hw.coherent
    · intro _ r w₁ w₂ hw hr hs
      refine ⟨?_, hs, ?_, fun hfalse => hr.2.host.trans (hw.stayed hfalse)⟩
      · rw [hr.1]
        exact hw.locked
      · rw [hr.1]
        exact hw.noIndexError
  have hinit : Config.Respects (newsDiscipline m) (fun _ _ r w => SearchEnded m r w)
      (.initial m fun _ : Unit => failover fromHost verifyCurrent) := by
    apply Config.initial_respects hm (Or.inl rfl)
    intro i w hr hs
    exact wp_failover_news hm fromHost verifyCurrent hs hr.1
  have hrespects := hinit.reaches hlasting (fun c f hpermit => ?_) hrun trivial
  · constructor
    · exact hrespects.suspended
    · intro text hresult
      exact (hrespects.result hresult).noIndexError text rfl
    · intro hresult
      exact (hrespects.result hresult).stayed rfl
  · rcases hpermit with ⟨⟨hheld, hosts, replace, rfl⟩, hstart⟩
    rw [hheld]
    exact ⟨rfl, ⟨hosts, replace, rfl⟩, hstart⟩

/-- A client with some hosts, using the one at an index. -/
def Machine.using (hosts : List String) (index : Nat) (host : String) : Machine :=
  Machine.placedAt ⟨ProxmoxVE.loggedIn hosts, 0⟩ index host

/-- News that adds a host, while another one is looked for. -/
theorem failover_selection_witness :
    ∃ c, c.world.state.client.hosts = ["192.0.2.1", "192.0.2.2", "192.0.2.3"] ∧
      SelectionKept (.using ["192.0.2.1", "192.0.2.2"] 1 "192.0.2.2") c := by
  let news : Machine → Machine := fun m => HostStep.apply m (.learn [.str "192.0.2.3"] false)
  have hlearned : (news ((Machine.using ["192.0.2.1", "192.0.2.2"] 1 "192.0.2.2").placedAt 0
      "192.0.2.1")).client.hosts = ["192.0.2.1", "192.0.2.2", "192.0.2.3"] := by
    decide +kernel
  refine ⟨_, ?_, failover_selection (m := .using ["192.0.2.1", "192.0.2.2"] 1 "192.0.2.2")
    (ProxmoxVE.placedAt_coherent rfl) none false
    (.tail (a := .environment news) (.tail (a := .lock ()) (.tail (a := .start ()) (.refl _)
      ⟨trivial, trivial⟩ rfl) ⟨trivial, trivial⟩ rfl) ⟨⟨rfl, _, _, rfl⟩, ?_⟩ rfl)⟩
  · exact hlearned
  · exact (congrArg (·[1]?) hlearned).trans rfl

/-- The list is replaced while the fourth host is searched for another; the first
one answers, and the warning reads the list at the remembered index. -/
theorem failover_selection_counterexample :
    ¬ ∀ c : FailoverRun, Config.Reaches NewsWhileWaiting
        (.initial (.using ["192.0.2.1", "192.0.2.2", "192.0.2.3", "192.0.2.4"] 3 "192.0.2.4")
          fun _ => failover none false) c →
      SelectionKept
        (.using ["192.0.2.1", "192.0.2.2", "192.0.2.3", "192.0.2.4"] 3 "192.0.2.4") c := by
  let news : Machine → Machine := fun m => HostStep.apply m (.learn [] true)
  intro hall
  have hkept := hall _ (.tail (a := .resume () (.ok { status := 200 }))
    (.tail (a := .environment news) (.tail (a := .lock ())
      (.tail (a := .start ()) (.refl _) trivial rfl) trivial rfl) ⟨rfl, _, _, rfl⟩ rfl)
    trivial rfl)
  rcases hkept.noIndexError "list index out of range" rfl with ⟨q, r, hgot, hread⟩
  have hgot : Event.got () q r ∈ ([_, _, _, _, _] : List _) := hgot
  simp only [List.mem_cons, List.not_mem_nil, or_false, reduceCtorEq, false_or,
    Event.got.injEq] at hgot
  rcases hgot with ⟨-, -, rfl⟩
  cases hread

end AioProxmox
