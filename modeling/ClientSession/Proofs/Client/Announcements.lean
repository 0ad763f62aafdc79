import ClientSession.Proofs.Client.Counters
import ClientSession.Proofs.Client.Fortunes

/-!
# What is made of lost sessions

Calls are made, tokens are stored, and the batcher works beside them. Each time a call that needs a
session goes on with a refusal of its token, one lost session is counted and the client's tab takes
leave of it once. So it is also where no session is stored any more, because another call has been
refused before: what is counted and announced are refusals, and these are as many as the sessions
that were lost only if each of them finds a session to clear.

- `Client.expires_send`: what a stretch of a call counts as lost.
- `Client.Course.undergone`: what becomes of the session in the course of it all.
- `Client.Sharing.counted_and_announced`: what is counted and what is announced, and when that is
  what was lost.
-/

namespace ClientSession

open Activity

variable {α : Type}

/-- Of two counts over a list, one of fewer things, the larger is no larger only if they count the
same. -/
theorem countP_le_countP_iff {p q : α → Bool} {l : List α}
    (hpq : ∀ x ∈ l, p x = true → q x = true) :
    l.countP q ≤ l.countP p ↔ ∀ x ∈ l, q x = true → p x = true := by
  induction l with
  | nil => simp
  | cons x l ih =>
      rw [List.forall_mem_cons] at hpq
      have hmono : l.countP p ≤ l.countP q := List.countP_mono_left hpq.2
      rw [List.forall_mem_cons, ← ih hpq.2, List.countP_cons, List.countP_cons]
      cases hp : p x <;> cases hq : q x
      · simp
      · simp
        omega
      · exact absurd (hpq.1 hp) (by simp [hq])
      · simp

namespace Client

variable {v : Vault} {c : Client} {ms : List Moment} {s : Scene} {x : Moment}

/-! ## Counting -/

/-- A session is counted as lost if the stretch began with a refusal of the token of a call that
needs one. -/
def Expired (_ : Unit) (i : Start Client) (c : Client) : Prop :=
  c.counts.sessionExpirations = i.state.counts.sessionExpirations + i.expelled.toNat

/-- A stretch that faults may not have come to count it. -/
abbrev Expiring : Pact Unit Client := Rules.Leaving (· ≠ .faults) Expired

theorem Expired.same {m : Unit} {i : Start Client} {c c' : Client} (h : Expired m i c)
    (hc : c'.counts = c.counts) : Expired m i c' := by
  rw [Expired, hc]
  exact h

theorem expired_begin (m : Unit) (now : Instant) (c : Client) : Expired m ⟨none, now, c⟩ c := rfl

theorem Pending.expired {ws : List Wait} {i : Start Client} {c : Client} (h : Pending ws i c) :
    Expired () i c := by
  rw [Expired, h.counts, h.unexpelled]
  rfl

theorem Tallied.expired {failed : Bool} {ws : List Wait} {i : Start Client} {r : CallResult}
    {c : Client} (h : Tallied failed ws i r c) : Expired () i c := by
  cases h with
  | answers _ _ _ hi hc =>
      rw [Expired, hc, hi]
      rfl
  | refused _ _ _ _ hi hc =>
      rw [Expired, hc, hi]
      rfl
  | fails _ _ _ _ hc =>
      rw [Expired, hc]
      rfl

theorem expiring_of_tallying {ws ws' : List Wait} {i : Start Client} {p : Pause} {c : Client}
    (h : Tallying ws i p c ws') : Expiring () i p c () := by
  intro hp
  cases p with
  | waits w => exact h.1.expired
  | drops =>
      rw [Expired, h.1, h.2.1]
      rfl
  | faults => exact absurd rfl hp
  | stays => exact h.elim

/-- What is counted from a later point on is added to what was counted before. -/
theorem Expired.trans {i : Start Client} {c c' : Client} {now : Instant} (h : Expired () i c)
    (h' : Expired () ⟨none, now, c⟩ c') : Expired () i c' :=
  Eq.trans h' h

/-- A call counts a lost session for each refusal of its token. -/
theorem expires_send (request : Request) : Maintains Expiring Expired (Client.send request) := by
  refine (tallies_send request).rebase (fun _ => ()) (fun _ _ _ _ _ => expiring_of_tallying)
    (fun _ _ _ _ => Tallied.expired) fun m i c h => ?_
  refine ⟨[], ⟨none, i.now, c⟩, rfl, ⟨rfl, rfl, rfl⟩, rfl, fun p c' ws' hp hfault => ?_,
    fun r c' hr => h.trans hr.expired⟩
  exact h.trans (expiring_of_tallying hp hfault)

theorem expires_sendRetrying (policy : RetryPolicy) (request : Request) (left done : Nat) :
    Maintains Expiring Expired (Client.sendRetrying policy request left done) := by
  have hbackOff : ∀ done, Maintains Expiring Expired (Client.backOff policy done) := by
    intro done
    refine Maintains.bind (triple_step fun m i c h => ?_) fun jitter => Maintains.bind
      (triple_attempt (fun _ _ _ _ hp => absurd rfl hp) fun m i c p h hp => ?_) fun span => ?_
    · exact h.same (by split <;> rfl)
    · obtain ⟨d, -, rfl⟩ := ok_of_bind hp
      exact h
    · refine Maintains.ite (triple_await fun m i c h => ?_) (maintains_pure ())
      exact ⟨(), fun _ => h, fun now c _ => expired_begin () now c, fun _ now c => rfl⟩
  induction left generalizing done with
  | zero => exact expires_send request
  | succ left ih =>
      refine Maintains.bind (expires_send request) fun outcome => ?_
      cases outcome with
      | ok response => exact maintains_pure _
      | error e =>
          refine Maintains.ite ?_ (maintains_pure _)
          refine Maintains.bind (triple_modify fun m i c h => h.same rfl) fun _ => ?_
          exact Maintains.bind (hbackOff done) fun _ => ih (done + 1)

theorem expires_carryOut {work : Work Operation Job} (h : sends work = true) :
    Maintains Expiring Expired (workplace.carryOut work) := by
  obtain ⟨r, rfl | rfl⟩ := eq_of_sends h
  · exact (expires_send r).map.map
  · refine Maintains.map (Maintains.map (Maintains.bind maintains_get fun c => ?_))
    exact expires_sendRetrying c.retry r c.retry.maxRetries 0

/-! ## What the session goes through -/

/-- The work is a call, or stores a token for some tab, or is done by the batcher. -/
def callsOrStores : Work Operation Job → Bool
  | .call (.onTab _ (.install _ _)) => true
  | .job (.telemetry _) => true
  | work => sends work

theorem not_checks {work : Work Operation Job} (h : callsOrStores work = true) :
    checks work = false := by
  unfold callsOrStores at h
  split at h
  · rfl
  · rfl
  · obtain ⟨r, rfl | rfl⟩ := eq_of_sends h <;> rfl

/-- A call goes on with a refusal of its token. -/
def Moment.expels (x : Moment) : Bool := sends x.work && x.start.expelled

/-- A session was stored before the moment, and none is after it. -/
def Moment.removes (v : Vault) (x : Moment) : Bool :=
  x.start.state.tabs.keeps v Tabs.tokenKey && !x.left.tabs.keeps v Tabs.tokenKey

/-- The answer with which a call goes on. -/
def Moment.answers (x : Moment) : List Cue := if sends x.work then x.start.cue.toList else []

theorem Moment.length_answers (x : Moment) :
    (x.answers.filter Cue.expels).length = x.expels.toNat := by
  unfold Moment.answers Moment.expels Start.expelled
  cases sends x.work
  · rfl
  · cases x.start.cue with
    | none => rfl
    | some q => cases hq : q.expels <;> simp [hq]

/-- The session goes through nothing but that it may be stored. -/
def Lasts (v : Vault) (_ : Unit) (i : Start Client) (c : Client) : Prop :=
  Sharing v i.state → ∃ b, Undergone v b [] i.state c ∧
    (i.state.tabs.keeps v Tabs.tokenKey = true → b = true)

theorem lasts_begin (m : Unit) (i : Start Client) : Lasts v m i i.state := fun h =>
  ⟨_, .idle h fun _ hq => absurd hq List.not_mem_nil, id⟩

theorem lasts_enduring (v : Vault) :
    Enduring (Rules.Leaving (fun _ => True) (Lasts v)) (Lasts v) fun _ _ _ => True where
  aside _ _ _ _ h ha hs := by
    obtain ⟨b, hc, hb⟩ := h hs
    exact ⟨b, hc.same ha.sameSession, hb⟩
  recalls m i c w h hw hs := by
    obtain ⟨b, hc, hb⟩ := h hs
    refine ⟨b, hc.recalls (own_setTabs c w) ?_, hb⟩
    rw [tabs_setTabs]
    exact hw hc.sharing.shares.healthy
  faults _ _ _ h _ := h
  stays _ _ _ h _ := h
  drops _ _ _ _ h ha _ hs := by
    obtain ⟨b, hc, hb⟩ := h trivial hs
    exact ⟨b, hc.same ha.sameSession, hb⟩
  waits m i c w h _ :=
    ⟨(), fun _ => h, fun now c _ => lasts_begin () ⟨none, now, c⟩,
      fun a now c _ => lasts_begin () ⟨some ⟨w, a⟩, now, c⟩, fun _ _ _ _ => trivial⟩
  calls m i c r h :=
    ⟨(), fun _ => h, fun now c _ => lasts_begin () ⟨none, now, c⟩,
      fun outcome now c => lasts_begin () ⟨some ⟨.call r, outcome⟩, now, c⟩⟩

/-- Storing a token makes the tab take no leave. -/
theorem undergone_act_install (h : Sharing v c) (tab : Nat) (t : BearerToken)
    (e : Option Instant) (now : Instant) :
    ∃ b, Undergone v b [] c (c.act tab (.install t e) now).2 ∧
      (c.tabs.keeps v Tabs.tokenKey = true → b = true) := by
  have hidle : Undergone v (c.tabs.keeps v Tabs.tokenKey) [] c c :=
    .idle h fun _ hq => absurd hq List.not_mem_nil
  unfold Client.act
  split
  · rename_i hopen
    dsimp only [TabAction.run]
    cases hterm : Tabs.term? t e with
    | none =>
        rw [Tabs.install_of_term_none hterm, setTabs_of_history rfl]
        exact ⟨_, hidle, id⟩
    | some term =>
        have hi := Tabs.install_of_term hterm h.shares hopen
        have ho := own_setTabs c (c.tabs.install tab t e).2
        rw [← tabs_setTabs c (c.tabs.install tab t e).2] at hi
        refine ⟨true, ⟨h.of_installed ho hi, ho, hi.bare, hi.history, ?_, hi.keeps_token,
          fun _ hgone => ?_⟩, fun _ => rfl⟩
        · rw [tabs_setTabs, Tabs.ownNews_install h.shares hopen]
          rfl
        · rw [hi.keeps_token] at hgone
          cases hgone
  · exact ⟨_, hidle, id⟩

theorem lasts_carryOut {work : Work Operation Job} (h : callsOrStores work = true)
    (hs : sends work = false) :
    Maintains (Rules.Leaving (fun _ => True) (Lasts v)) (Lasts v) (workplace.carryOut work) := by
  unfold callsOrStores at h
  split at h
  · rename_i tab t e
    refine Maintains.map (triple_step fun m i c hc hi => ?_)
    obtain ⟨b, hc, hb⟩ := hc hi
    obtain ⟨b', hc', hb'⟩ := undergone_act_install hc.sharing tab t e i.now
    refine ⟨b', hc.trans hc', fun hkeeps => hb' ?_⟩
    rw [hc.kept]
    exact hb hkeeps
  · rename_i job
    have htelemetry := (lasts_enduring v).telemetry (Batcher.unattributing_perform job)
    refine Maintains.bind (Maintains.map htelemetry) fun again => ?_
    cases again with
    | some j => exact maintains_pure _
    | none => exact maintains_pure _
  · rw [hs] at h
    cases h

/-- No moment of a course is one of a call that faults. -/
theorem goes_of_sends (hrun : Course (scene c) ms s) (hx : x ∈ ms) (hs : sends x.work = true) :
    ∀ p, x.result = .paused p → p ≠ .faults := by
  rintro p hp rfl
  obtain ⟨r, hr | hr⟩ := eq_of_sends hs <;> exact hrun.not_faults hx (hr ▸ rfl) hp

/-- What the session goes through in a moment. -/
theorem undergone_of_mem (hrun : Course (scene c) ms s) (hx : x ∈ ms)
    (hwork : callsOrStores x.work = true) (hs : Sharing v x.start.state) :
    ∃ b, Undergone v b (Moment.answers x) x.start.state x.left ∧
      (x.start.state.tabs.keeps v Tabs.tokenKey = true → Moment.expels x = false → b = true) := by
  cases hsends : sends x.work with
  | true =>
      have hgoes := goes_of_sends hrun hx hsends
      have hunder := Rules.holds_of_leaving (underwent_begin (v := v) ()) (fun work hwork => by
        obtain ⟨r, rfl | rfl⟩ := eq_of_sends hwork
        · exact ((undergone_calling v).send r).map.map
        · exact ((undergone_calling v).sendWithRetry r).map.map) hrun hx hsends hgoes
      rw [Moment.answers, hsends, if_pos rfl]
      refine ⟨_, hunder hs, fun hkeeps hexpels => ?_⟩
      rw [Moment.expels, hsends, Bool.true_and, Start.expelled] at hexpels
      rw [hkeeps]
      cases hq : x.start.cue with
      | none => rfl
      | some q =>
          rw [hq, Option.any_some] at hexpels
          simp [keptAfter, hexpels]
  | false =>
      have hlasts : ∀ work, (callsOrStores work && !sends work) = true →
          Maintains (Rules.Leaving (fun _ => True) (Lasts v)) (Lasts v) (workplace.carryOut work) :=
        fun work h => by
          rw [Bool.and_eq_true, Bool.not_eq_true'] at h
          exact lasts_carryOut h.1 h.2
      have hselected : (callsOrStores x.work && !sends x.work) = true := by
        rw [hwork, hsends]
        rfl
      obtain ⟨b, hc, hb⟩ := Rules.holds_of_leaving (fun now c => lasts_begin () ⟨none, now, c⟩)
        hlasts hrun hx hselected (fun _ _ => trivial) hs
      rw [Moment.answers, hsends]
      exact ⟨b, hc, fun hkeeps _ => hb hkeeps⟩

/-- What a moment counts as lost. -/
theorem Moment.expirations (hrun : Course (scene c) ms s) (hx : x ∈ ms)
    (hwork : callsOrStores x.work = true) : x.left.counts.sessionExpirations =
      x.start.state.counts.sessionExpirations + x.expels.toNat := by
  cases hsends : sends x.work with
  | true =>
      have hexpired := Rules.holds_of_leaving (expired_begin ()) (fun _ => expires_carryOut) hrun hx
        hsends (goes_of_sends hrun hx hsends)
      rw [Moment.expels, hsends, Bool.true_and]
      exact hexpired
  | false =>
      rw [Moment.expels, hsends, Bool.false_and, counts_of_mem hrun hx hsends (not_checks hwork)]
      rfl

/-! ## Courses -/

/-- What the session goes through in a course. -/
theorem Course.undergone (h : Sharing v c) (hrun : Course (scene c) ms s)
    (hwork : ∀ x ∈ ms, callsOrStores x.work = true) :
    ∃ b, Undergone v b (ms.flatMap Moment.answers) c s.state := by
  induction hrun with
  | nil => exact ⟨_, .idle h fun _ hq => absurd hq List.not_mem_nil⟩
  | @snoc ms t x hbefore hx ih =>
      obtain ⟨b, hc⟩ := ih fun y hy => hwork y (List.mem_append_left _ hy)
      have hmem : x ∈ ms ++ [x] := List.mem_append_right ms (List.mem_singleton.mpr rfl)
      have hsharing : Sharing v x.start.state := hx.start_state ▸ hc.sharing
      obtain ⟨b', hx', -⟩ := undergone_of_mem (hbefore.snoc hx) hmem (hwork x hmem) hsharing
      obtain ⟨ht, ho⟩ := Step.tabs_eq hx
      rw [hx.start_state] at hx'
      refine ⟨b', ?_⟩
      rw [List.flatMap_append, List.flatMap_singleton]
      exact (hc.trans hx').same ⟨ho, ht⟩

theorem Course.expirations (hrun : Course (scene c) ms s)
    (hwork : ∀ x ∈ ms, callsOrStores x.work = true) :
    s.state.counts.sessionExpirations = c.counts.sessionExpirations + ms.countP Moment.expels := by
  induction hrun with
  | nil => rfl
  | @snoc ms t x hbefore hx ih =>
      have hmem : x ∈ ms ++ [x] := List.mem_append_right ms (List.mem_singleton.mpr rfl)
      have hone : x.left.counts.sessionExpirations =
          x.start.state.counts.sessionExpirations + (Moment.expels x).toNat :=
        Moment.expirations (hbefore.snoc hx) hmem (hwork x hmem)
      rw [Step.counts_eq hx, hone, hx.start_state,
        ih fun y hy => hwork y (List.mem_append_left _ hy), List.countP_append,
        List.countP_singleton, Nat.add_assoc]
      cases Moment.expels x <;> rfl

/-- So many farewells as there were refusals. -/
theorem farewells_answers (c : Client) (ms : List Moment) :
    c.farewells (ms.flatMap Moment.answers) =
      (List.replicate (ms.countP Moment.expels) (c.tabs.farewell c.own .unauthorized)).flatten := by
  induction ms with
  | nil => rfl
  | cons x ms ih =>
      have hone : c.farewells (Moment.answers x) = (List.replicate (Moment.expels x).toNat
          (c.tabs.farewell c.own .unauthorized)).flatten := by
        rw [farewells, ← Moment.length_answers, List.flatMap_def, List.map_const']
      rw [List.flatMap_cons, farewells_append, ih, hone, List.countP_cons, Nat.add_comm,
        List.replicate_add, List.flatten_append]
      cases Moment.expels x <;> rfl

/-- Only a call that goes on with a refusal of its token removes a stored session. -/
theorem Moment.expels_of_removes (hrun : Course (scene c) ms s) (hx : x ∈ ms)
    (hwork : callsOrStores x.work = true) (hs : Sharing v x.start.state)
    (hremoves : Moment.removes v x = true) : Moment.expels x = true := by
  rw [Moment.removes, Bool.and_eq_true, Bool.not_eq_true'] at hremoves
  obtain ⟨b, hx', hb⟩ := undergone_of_mem hrun hx hwork hs
  by_contra hexpels
  have hkept := hx'.kept
  rw [hb hremoves.1 (Bool.eq_false_iff.mpr hexpels), hremoves.2] at hkept
  cases hkept

/-- What is counted as lost and what is announced are the refusals: each is counted once, and each
makes the tab take leave of its session once. Every removal of a stored session is among them. So
there are no more expirations than removals, and as many announcements, if and only if every refusal
finds a session to clear. -/
theorem Sharing.counted_and_announced (h : Sharing v c) (hrun : Course (scene c) ms s)
    (hwork : ∀ x ∈ ms, callsOrStores x.work = true) :
    s.state.counts.sessionExpirations =
        c.counts.sessionExpirations + ms.countP Moment.expels ∧
      Tabs.ownNews c.own c.tabs s.state.tabs =
        (List.replicate (ms.countP Moment.expels) (c.tabs.farewell c.own .unauthorized)).flatten ∧
      (∀ x ∈ ms, Moment.removes v x = true → Moment.expels x = true) ∧
      (s.state.counts.sessionExpirations ≤
          c.counts.sessionExpirations + ms.countP (Moment.removes v) ↔
        ∀ x ∈ ms, Moment.expels x = true → Moment.removes v x = true) ∧
      ((c.tabs.news s.state.tabs).count (.ended c.own .unauthorized) =
          ms.countP (Moment.removes v) ↔
        ∀ x ∈ ms, Moment.expels x = true → Moment.removes v x = true) := by
  obtain ⟨b, hundergone⟩ := Course.undergone h hrun hwork
  have hcounted := Course.expirations hrun hwork
  have hannounced := hundergone.noted
  rw [farewells_answers] at hannounced
  have hremoves : ∀ x ∈ ms, Moment.removes v x = true → Moment.expels x = true := by
    intro x hx
    obtain ⟨before, after, rfl⟩ := List.append_of_mem hx
    obtain ⟨t, hbefore, hstep, -⟩ := hrun.split
    have hsharing := h.course hbefore
    rw [← hstep.start_state] at hsharing
    exact Moment.expels_of_removes hrun hx (hwork x hx) hsharing
  have hiff := countP_le_countP_iff hremoves
  have hfewer : ms.countP (Moment.removes v) ≤ ms.countP Moment.expels :=
    List.countP_mono_left hremoves
  have htold : (c.tabs.news s.state.tabs).count (.ended c.own .unauthorized) =
      ms.countP Moment.expels := by
    rw [← Tabs.count_ownNews, hannounced, List.count_flatten, List.map_replicate,
      Tabs.count_farewell, if_pos rfl, List.sum_replicate_nat, Nat.mul_one]
  refine ⟨hcounted, hannounced, hremoves, ?_, ?_⟩
  · rw [hcounted, ← hiff]
    omega
  · rw [htold, ← hiff]
    omega

/-! ## Two refusals of one token -/

/-- A token is stored and two calls are made. Both are refused. -/
def twiceRefused : Script :=
  [(⟨1748779200000000000⟩, .ask (.onTab 0 (.install ⟨"t1"⟩ (some ⟨1748782800000000000⟩)))),
    (⟨1748779200000000000⟩, .ask (.send (.new .get "/words"))),
    (⟨1748779200000000000⟩, .ask (.send (.new .get "/users/me"))),
    (⟨1748779201000000000⟩, .reply 1 (Wait.answer (.ok ⟨401, Table.empty, ""⟩)
      (.error .loginRequired))),
    (⟨1748779201000000000⟩, .reply 2 (Wait.answer (.ok ⟨401, Table.empty, ""⟩)
      (.error .loginRequired)))]

/-- The second refusal finds no session, and is counted and announced all the same. -/
theorem counted_and_announced_twice : ∃ (ms : List Moment) (s : Scene),
    Course (scene plain) ms s ∧ (∀ x ∈ ms, callsOrStores x.work = true) ∧
      ms.countP (Moment.removes ⟨Config.defaultNamespace, ⟨"", "", "", ""⟩⟩) = 1 ∧
      s.state.counts.sessionExpirations = 2 ∧
      Tabs.ownNews plain.own plain.tabs s.state.tabs =
        [.ended 0 .unauthorized, .reacted 0 .stopWork .unauthorized, .ended 0 .unauthorized,
          .reacted 0 .stopWork .unauthorized] := by
  have hpasses : workplace.passes (scene plain) twiceRefused 4
      (fun ms x ms' s => (ms ++ x :: ms').all (fun y => callsOrStores y.work) && decide
        ((ms ++ x :: ms').countP (Moment.removes ⟨Config.defaultNamespace, ⟨"", "", "", ""⟩⟩) = 1 ∧
          (ms ++ x :: ms').countP Moment.expels = 2)) = true := by
    decide +kernel
  obtain ⟨ms, x, ms', s, hrun, htest⟩ := Workplace.exists_course hpasses
  rw [Bool.and_eq_true, decide_eq_true_eq, List.all_eq_true] at htest
  obtain ⟨hwork, hone, htwo⟩ := htest
  obtain ⟨hcounted, hannounced, -⟩ := sharing_plain.counted_and_announced hrun hwork
  rw [htwo] at hcounted hannounced
  exact ⟨_, s, hrun, hwork, hone, hcounted, hannounced⟩

/-- There may be more expirations and more announcements than sessions that were removed. -/
theorem not_counted_as_removed : ¬∀ (v : Vault) (c : Client) (ms : List Moment) (s : Scene),
    Sharing v c → Course (scene c) ms s → (∀ x ∈ ms, callsOrStores x.work = true) →
      s.state.counts.sessionExpirations ≤
          c.counts.sessionExpirations + ms.countP (Moment.removes v) ∧
        (c.tabs.news s.state.tabs).count (.ended c.own .unauthorized) =
          ms.countP (Moment.removes v) := by
  intro hclaim
  have hpasses : workplace.passes (scene plain) twiceRefused 4
      (fun ms x ms' s => (ms ++ x :: ms').all (fun y => callsOrStores y.work) && decide
        ((ms ++ x :: ms').countP (Moment.removes ⟨Config.defaultNamespace, ⟨"", "", "", ""⟩⟩) = 1 ∧
          s.state.counts.sessionExpirations = 2)) = true := by
    decide +kernel
  obtain ⟨ms, x, ms', s, hrun, htest⟩ := Workplace.exists_course hpasses
  rw [Bool.and_eq_true, decide_eq_true_eq, List.all_eq_true] at htest
  obtain ⟨hwork, hone, htwo⟩ := htest
  have hfewer := (hclaim _ plain _ s sharing_plain hrun hwork).1
  rw [hone, htwo] at hfewer
  exact absurd hfewer (by decide)

end Client

end ClientSession
