import ClientSession.Proofs.Client.Sharing
import ClientSession.Proofs.Session.Hearing

/-!
# What a check does elsewhere

A check of the token that does not fail, and that the server does not refuse, ends no session by
itself. But before every attempt other than the first it drops the token. Where one is stored the
tabs that listen hear that it was removed, and lose their sessions.

- `Heard.trans`: the ends of sessions that a stretch brings about, one change after another.
- `Sharing.check_ended_iff`: the ends of sessions that a check brings about.
-/

namespace ClientSession

open Activity

namespace Client

variable {v : Vault} {c c' c₀ : Client}

/-! ## Ends of sessions -/

/-- The sessions that have ended since are those of the other tabs that listen, and for the reason
that another tab removed the token, if its removal was made known; else there are none. -/
structure Heard (v : Vault) (c₀ c : Client) : Prop where
  sharing : Sharing v c
  own : c.own = c₀.own
  history : c₀.tabs.history <+: c.tabs.history
  listening : ∀ j, c.tabs.Listening j ↔ c₀.tabs.Listening j
  ended : ∀ j reason, Tabs.Ended j reason c₀.tabs c.tabs ↔
    removedSince c₀ c = true ∧ j ≠ c₀.own ∧ c₀.tabs.Listening j ∧ reason = .crossTab

namespace Heard

/-- Nothing was noted. -/
theorem of_history (h : Sharing v c') (ho : c'.own = c.own)
    (hh : c'.tabs.history = c.tabs.history) (hl : ∀ j, c'.tabs.Listening j ↔ c.tabs.Listening j) :
    Heard v c c' where
  sharing := h
  own := ho
  history := hh ▸ List.prefix_rfl
  listening := hl
  ended j reason := by
    rw [removedSince_of_history hh]
    constructor
    · intro hended
      exact absurd hended (Tabs.not_ended_of_history hh)
    · rintro ⟨hr, -⟩
      cases hr

protected theorem refl (h : Sharing v c) : Heard v c c := .of_history h rfl rfl fun _ => Iff.rfl

protected theorem trans (h : Heard v c₀ c) (h' : Heard v c c') : Heard v c₀ c' where
  sharing := h'.sharing
  own := h'.own.trans h.own
  history := h.history.trans h'.history
  listening j := (h'.listening j).trans (h.listening j)
  ended j reason := by
    rw [Tabs.ended_trans h.history h'.history, h.ended, h'.ended, h.own, h.listening,
      removedSince_trans h.history h'.history, Bool.or_eq_true]
    constructor
    · rintro (⟨hr, hj⟩ | ⟨hr, hj⟩)
      · exact ⟨.inl hr, hj⟩
      · exact ⟨.inr hr, hj⟩
    · rintro ⟨hr | hr, hj⟩
      · exact .inl ⟨hr, hj⟩
      · exact .inr ⟨hr, hj⟩

theorem of_recalls (h : Sharing v c) (ho : c'.own = c.own)
    (hr : Tabs.Recalls c.own c.tabs c'.tabs) : Heard v c c' := by
  refine of_history (h.of_recalls ho hr) ho hr.history fun j => ?_
  rw [Tabs.Listening, Tabs.Listening, hr.listeners, Tabs.isSome_tab?_congr hr.bare]

theorem of_clearSession (h : Sharing v c) (ho : c'.own = c.own)
    (ht : c'.tabs = c.tabs.clearSession c.own) : Heard v c c' := by
  have hfades : Tabs.Fades v true c.tabs c'.tabs := by
    rw [ht]
    exact Tabs.clearSession_fades h.shares.fadeable h.here
  refine ⟨h.of_erodes ho hfades.erodes, ho, hfades.erodes.history, hfades.erodes.listening,
    fun j reason => ?_⟩
  rw [removedSince, ht, Tabs.clearSession_ended_iff h.shares h.here,
    Tabs.clearSession_removal h.shares h.here]

theorem of_installed (h : Sharing v c) (ho : c'.own = c.own) {t : BearerToken} {e : Instant}
    (hi : Tabs.Installed v c.own t e c.tabs c'.tabs) : Heard v c c' where
  sharing := h.of_installed ho hi
  own := ho
  history := hi.history
  listening j := by
    rw [Tabs.Listening, Tabs.Listening, Tabs.isSome_tab?_congr hi.bare, hi.listeners]
  ended j reason := by
    rw [removedSince, hi.no_removal]
    constructor
    · intro hended
      exact absurd hended hi.not_ended
    · rintro ⟨hr, -⟩
      cases hr

end Heard

/-! ## Stretches -/

/-- The retries of checks that have been counted. -/
def retries (c : Client) : Nat := c.validator.tally.retries

theorem le_retries_setTabs (c : Client) (w : Tabs) : c.retries ≤ (c.setTabs w).retries := by
  unfold Client.setTabs
  dsimp only
  split <;> exact Nat.le_refl _

theorem le_retries_tryBegin (c : Client) : c.retries ≤ c.tryBegin.2.retries := by
  show c.retries ≤ c.validator.tryBegin.2.tally.retries
  unfold Validator.tryBegin
  split <;> exact Nat.le_refl _

/-- A retry of the check was counted; the memo tells of the stretches before. -/
def Retried (m : Bool) (i : Start Client) (c : Client) : Prop :=
  m = true ∨ i.state.retries < c.retries

/-- Where tabs share a vault and the server has not refused the token, sessions have ended only
because a token was removed, and that only once a retry was counted. -/
structure Spared (v : Vault) (m : Bool) (i : Start Client) (c : Client) : Prop where
  counts : i.state.retries ≤ c.retries
  heard : Sharing v i.state → i.refused = false →
    Heard v i.state c ∧ (removedSince i.state c = true → Retried m i c)

/-- Every stretch spares the other sessions, and the memo is true only if a retry was counted. -/
def Sparing (v : Vault) : Pact Bool Client := fun m i _ c m' =>
  Spared v m i c ∧ (m' = true → Retried m i c)

section Stretches

variable {m : Bool} {i : Start Client}

theorem Retried.mono (h : Retried m i c) (hr : c.retries ≤ c'.retries) : Retried m i c' :=
  h.imp id fun hlt => Nat.lt_of_lt_of_le hlt hr

theorem spared_begin (m : Bool) (q : Option Cue) (now : Instant) (c : Client) :
    Spared v m ⟨q, now, c⟩ c where
  counts := Nat.le_refl _
  heard h _ := by
    refine ⟨.refl h, fun hr => ?_⟩
    rw [removedSince_of_history rfl] at hr
    cases hr

/-- A change that makes no removal known. -/
theorem Spared.quiet (h : Spared v m i c) (hr : c.retries ≤ c'.retries)
    (hheard : Sharing v c → Heard v c c') (hquiet : Sharing v c → removedSince c c' = false) :
    Spared v m i c' where
  counts := Nat.le_trans h.counts hr
  heard hs hi := by
    obtain ⟨hc, hretried⟩ := h.heard hs hi
    have hc' := hheard hc.sharing
    refine ⟨hc.trans hc', fun hrem => ?_⟩
    rw [removedSince_trans hc.history hc'.history, hquiet hc.sharing, Bool.or_false] at hrem
    exact (hretried hrem).mono hr

theorem Spared.of_recalls (h : Spared v m i c) (hr : c.retries ≤ c'.retries)
    (ho : c'.own = c.own)
    (hw : c.tabs.backend.Healthy → Tabs.Recalls c.own c.tabs c'.tabs) : Spared v m i c' := by
  refine h.quiet hr (fun hc => .of_recalls hc ho (hw hc.shares.healthy)) fun hc => ?_
  exact removedSince_of_history (hw hc.shares.healthy).history

theorem Spared.aside (h : Spared v m i c) (ha : Aside c c') : Spared v m i c' :=
  h.of_recalls ha.retries ha.own fun _ => .inl ha.tabs

theorem Spared.dropSession (h : Spared v m i c) (hr : Retried m i c) :
    Spared v m i c.dropSession where
  counts := Nat.le_trans h.counts (le_retries_setTabs c _)
  heard hs hi := by
    obtain ⟨hc, -⟩ := h.heard hs hi
    have hclear : Heard v c c.dropSession :=
      .of_clearSession hc.sharing (own_setTabs c _) (tabs_setTabs c _)
    exact ⟨hc.trans hclear, fun _ => hr.mono (le_retries_setTabs c _)⟩

theorem spared_store {q : Option Cue} {now : Instant} {t : IssuedToken}
    (ht : (Tabs.term? t.token t.expiresAt).isSome) (m : Bool) (c : Client) :
    Spared v m ⟨q, now, c⟩ (c.store t) := by
  obtain ⟨e, he⟩ := Option.isSome_iff_exists.mp ht
  refine (spared_begin m q now c).quiet (le_retries_setTabs c _) (fun h => ?_) fun h => ?_
  · exact .of_installed h (own_setTabs c _) (h.store_installed he)
  · rw [removedSince, (h.store_installed he).no_removal]

end Stretches

/-! ## Passes -/

theorem spared_lasting (v : Vault) : Lasting (Sparing v) (Spared v) (Spared v) where
  aside _ _ _ _ h ha := h.aside ha
  recalls m i c w h hw := by
    refine h.of_recalls (le_retries_setTabs c w) (own_setTabs c w) fun hh => ?_
    rw [tabs_setTabs]
    exact hw hh
  faults _ _ _ h := ⟨h, .inl⟩
  stays _ _ _ h := ⟨h, .inl⟩
  drops _ _ _ _ h ha := ⟨h.1.aside ha, .inl⟩
  waits m _ _ _ h _ :=
    ⟨m, ⟨h, .inl⟩, fun now c => ⟨spared_begin m _ now c, .inl⟩,
      fun _ now c _ => spared_begin m _ now c,
      fun t now c ht => spared_store (term?_isSome_of_storable? ht) m c⟩
  calls m _ _ _ h :=
    ⟨m, ⟨h, .inl⟩, fun now c => ⟨spared_begin m _ now c, .inl⟩,
      fun _ now c => spared_begin m _ now c⟩
  refuses m i c h hexpelled := by
    refine ⟨Nat.le_trans h.counts (le_retries_setTabs c _), fun _ hi => ?_⟩
    rw [refused_of_expelled hexpelled] at hi
    cases hi

/-- The retries that were counted stay counted from one stretch to the next. -/
theorem retried_lasting (v : Vault) : Lasting (Sparing v)
    (fun m i c => Spared v m i c ∧ Retried m i c) fun m i c => Spared v m i c ∧ Retried m i c where
  aside _ _ _ _ h ha := ⟨h.1.aside ha, h.2.mono ha.retries⟩
  recalls m i c w h hw :=
    ⟨(spared_lasting v).recalls m i c w h.1 hw, h.2.mono (le_retries_setTabs c w)⟩
  faults _ _ _ h := ⟨h.1, .inl⟩
  stays _ _ _ h := ⟨h.1, .inl⟩
  drops := (spared_lasting v).drops
  waits _ _ _ _ h _ :=
    ⟨true, ⟨h.1, fun _ => h.2⟩, fun now c => ⟨spared_begin true _ now c, .inl⟩,
      fun _ now c _ => ⟨spared_begin true _ now c, .inl rfl⟩,
      fun _ _ c ht => ⟨spared_store (term?_isSome_of_storable? ht) true c, .inl rfl⟩⟩
  calls _ _ _ _ h :=
    ⟨true, ⟨h.1, fun _ => h.2⟩, fun now c => ⟨spared_begin true _ now c, .inl⟩,
      fun _ now c => ⟨spared_begin true _ now c, .inl rfl⟩⟩
  refuses m i c h hexpelled :=
    ⟨(spared_lasting v).refuses m i c h.1 hexpelled, h.2.mono (le_retries_setTabs c _)⟩

/-- What a check leaves that does not fail. -/
def SparedUnlessError (v : Vault) (m : Bool) (i : Start Client) (r : ValidationResult)
    (c : Client) : Prop :=
  match r with
  | .ok _ => Spared v m i c
  | .error _ => True

theorem sparing_passing (v : Vault) : Passing (Sparing v) (Spared v)
    (fun m i c => Spared v m i c ∧ Retried m i c) (SparedUnlessError v) where
  first := (spared_lasting v).calling
  later := (retried_lasting v).calling
  retries m i c h := by
    have hs : Spared v m i c := h.elim id (·.1)
    exact ⟨hs.aside (aside_countValidation c .retry), .inr (Nat.lt_succ_of_le hs.counts)⟩
  clears _ _ c h := ⟨h.1.dropSession h.2, h.2.mono (le_retries_setTabs c _)⟩
  begins _ _ c h := h.of_recalls (le_retries_tryBegin c) rfl fun _ => .inl rfl
  abandons _ _ _ h := ⟨h.1.of_recalls (Nat.le_refl _) rfl fun _ => .inl rfl, .inl⟩
  refused _ _ _ _ := trivial
  succeeds _ _ _ _ h := (h.elim id (·.1)).of_recalls (Nat.le_refl _) rfl fun _ => .inl rfl
  fails _ _ _ _ _ := trivial

theorem sparing_validateSession (v : Vault) :
    Triple (Sparing v) (Spared v) Client.validateSession (SparedUnlessError v) := by
  refine (sparing_passing v).validateSession (fun m i c user h => ?_) fun _ _ _ _ _ => trivial
  have hs : Spared v m i c := h
  show Spared v m i (c.resumeSession user)
  unfold resumeSession
  split
  · exact hs.of_recalls (Nat.le_refl _) rfl fun _ => .inl rfl
  · exact hs.of_recalls (Nat.le_refl _) rfl fun _ => .inl rfl

/-! ## Rules -/

/-- The work is a check of the token. -/
def checks : Work Operation Job → Bool
  | .call .validate => true
  | .call .validateSession => true
  | _ => false

theorem eq_of_checks {work : Work Operation Job} (h : checks work = true) :
    work = .call .validate ∨ work = .call .validateSession := by
  unfold checks at h
  split at h
  · exact .inl rfl
  · exact .inr rfl
  · cases h

/-- What is asked of checks; other work keeps the memo. -/
def sparingRules (v : Vault) : Rules Bool Client Operation Reply Job where
  memo := false
  pact work m i p c m' :=
    (checks work = true → Sparing v m i p c m') ∧ (checks work = false → m' = m)
  outcome work m i e c := checks work = true → confirms e = true → Spared v m i c

theorem sparing_carryOut {work : Work Operation Job} (h : checks work = true) :
    Triple (Sparing v) (Spared v) (workplace.carryOut work) fun m i e c =>
      confirms e = true → Spared v m i c := by
  have hanswer : ∀ {x : Activity Client ValidationResult},
      Triple (Sparing v) (Spared v) x (SparedUnlessError v) →
        Triple (Sparing v) (Spared v) (do return Reply.validated (← x)) fun m i a c =>
          confirms (.answers a) = true → Spared v m i c := by
    intro x hx
    refine Triple.bind hx fun r => triple_pure fun m i c hr hok => ?_
    cases r with
    | ok user => exact hr
    | error e => cases hok
  rcases eq_of_checks h with rfl | rfl
  · exact Triple.bind (hanswer (sparing_passing v).validate) fun a => triple_pure fun m i c h => h
  · exact Triple.bind (hanswer (sparing_validateSession v)) fun a => triple_pure fun m i c h => h

theorem sparingRules_keptBy (v : Vault) : (sparingRules v).KeptBy workplace :=
  Rules.only_keptBy (A := Spared v) (fun now c => spared_begin false none now c)
    (fun now c => ⟨spared_begin false none now c, .inl⟩) fun _ => sparing_carryOut

/-! ## Checks that succeed -/

/-- A retry was counted in the moment. -/
def Moment.countsRetry (x : Moment) : Bool := decide (x.start.state.retries < x.left.retries)

/-- The moment is the end of its work. -/
def Moment.ends (x : Moment) : Bool :=
  match x.result with
  | .ended _ => true
  | .paused _ => false

/-- The moment is the end of a check that succeeds. -/
def Moment.succeeds (x : Moment) : Bool :=
  match x.result with
  | .ended e => confirms e
  | .paused _ => false

/-- The work of a number is a check that ends with success if it ends, and no attempt of it is
answered with a refusal of the token. -/
structure Unfailing (n : Nat) (ms : List Moment) : Prop where
  checks : ∀ x ∈ ms, x.number = n → checks x.work = true
  unrefused : ∀ x ∈ ms, x.number = n → x.start.refused = false
  succeeds : ∀ x ∈ ms, x.number = n → x.ends = true → x.succeeds = true

instance (n : Nat) (ms : List Moment) : Decidable (Unfailing n ms) :=
  decidable_of_iff ((∀ x ∈ ms, x.number = n → Client.checks x.work = true) ∧
      (∀ x ∈ ms, x.number = n → x.start.refused = false) ∧
        ∀ x ∈ ms, x.number = n → x.ends = true → x.succeeds = true)
    ⟨fun h => ⟨h.1, h.2.1, h.2.2⟩, fun h => ⟨h.checks, h.unrefused, h.succeeds⟩⟩

/-- A retry of the work of a number was counted in these moments. -/
def Counted (ms : List Moment) (n : Nat) (m : Bool) : Prop :=
  m = true → ∃ y ∈ ms, y.number = n ∧ y.countsRetry = true

/-- What a stretch of a check leaves that has not failed, with a memo that is true only if a retry
was counted in an earlier one. -/
theorem spared_of_checks (v : Vault) {ms ms' : List Moment} {x : Moment} {s : Scene}
    (hrun : Course (scene c) (ms ++ x :: ms') s) (hwork : checks x.work = true)
    (hends : x.ends = true → x.succeeds = true) :
    ∃ m, Counted ms x.number m ∧ Spared v m x.start x.left := by
  have hgrow : ∀ l y n m, Counted l n m → Counted (l ++ [y]) n m := by
    intro l y n m h hm
    obtain ⟨z, hz, hn, hcounts⟩ := h hm
    exact ⟨z, List.mem_append_left _ hz, hn, hcounts⟩
  have hpact : ∀ l y m p m', Counted l y.number m → y.result = .paused p →
      (sparingRules v).pact y.work m y.start p y.left m' → Counted (l ++ [y]) y.number m' := by
    intro l y m p m' hl _ hp hm'
    cases hchecks : checks y.work with
    | false => exact hgrow l y _ m hl (hp.2 hchecks ▸ hm')
    | true =>
        rcases (hp.1 hchecks).2 hm' with hm | hlt
        · exact hgrow l y _ m hl hm
        · exact ⟨y, List.mem_append_right _ (List.mem_singleton.mpr rfl), rfl, decide_eq_true hlt⟩
  obtain ⟨hkeeps, -⟩ := (sparingRules_keptBy v).course (R := Counted) (fun _ _ hm => nomatch hm)
    hgrow hpact (.idle c) hrun
  obtain ⟨m, m', hm, hx⟩ := hkeeps ms x ms' rfl
  refine ⟨m, hm, ?_⟩
  obtain ⟨n, work, i, result, left, after⟩ := x
  cases result with
  | paused p => exact (hx.1 hwork).1
  | ended e => exact hx.1 hwork (hends rfl)

/-- In a stretch of a check that succeeds those tabs lose their session that listen, for the reason
that another tab removed the token, and that if and only if the removal of the token was made known.
By then the check has counted a retry. -/
theorem Sharing.check_ended_iff {c : Client} {ms ms' : List Moment} {x : Moment} {s : Scene}
    (h : Sharing v c) (hrun : Course (scene c) (ms ++ x :: ms') s)
    (hx : Unfailing x.number (ms ++ x :: ms')) :
    (∀ j reason, Tabs.Ended j reason x.start.state.tabs x.left.tabs ↔
      removedSince x.start.state x.left = true ∧ j ≠ x.start.state.own ∧
        x.start.state.tabs.Listening j ∧ reason = .crossTab) ∧
    (removedSince x.start.state x.left = true →
      ∃ y ∈ ms ++ [x], y.number = x.number ∧ y.countsRetry = true) := by
  obtain ⟨t, before, hstep, -⟩ := hrun.split
  have hx₀ : x ∈ ms ++ x :: ms' := List.mem_append_right ms (List.mem_cons_self ..)
  have hsharing := h.course before
  rw [← hstep.start_state] at hsharing
  obtain ⟨m, hm, hspared⟩ := spared_of_checks v hrun (hx.checks x hx₀ rfl) (hx.succeeds x hx₀ rfl)
  obtain ⟨hheard, hretried⟩ := hspared.heard hsharing (hx.unrefused x hx₀ rfl)
  refine ⟨hheard.ended, fun hrem => ?_⟩
  -- The retry was counted in an earlier stretch, as the memo tells, or in this one.
  rcases hretried hrem with htrue | hlt
  · obtain ⟨y, hy, hn, hcounts⟩ := hm htrue
    exact ⟨y, List.mem_append_left _ hy, hn, hcounts⟩
  · exact ⟨x, List.mem_append_right _ (List.mem_singleton.mpr rfl), rfl, decide_eq_true hlt⟩

/-- The first tab stores a token and checks it. The server fails, and the check waits before it
tries again. -/
def failedAttempt : Script :=
  [(⟨1748779200000000000⟩, .ask (.onTab 0 (.install ⟨"t1"⟩ (some ⟨1748782800000000000⟩)))),
    (⟨1748779200000000000⟩, .ask .validate),
    (⟨1748779200000000000⟩, .reply 1 (Wait.answer (.ok ⟨503, Table.empty, ""⟩)
      (.error .loginRequired))),
    (⟨1748779202000000000⟩, .reply 1 (Wait.answer (.ok ⟨503, Table.empty, ""⟩)
      (.error .loginRequired)))]

/-- A check that has counted a retry removes the token, and the second tab loses its session. -/
theorem check_ended_iff_plainPair : ∃ (ms ms' : List Moment) (x : Moment) (s : Scene),
    Sharing ⟨Config.defaultNamespace, ⟨"", "", "", ""⟩⟩ plainPair ∧
      Course (scene plainPair) (ms ++ x :: ms') s ∧ Unfailing x.number (ms ++ x :: ms') ∧
        (∀ j reason, Tabs.Ended j reason x.start.state.tabs x.left.tabs ↔
          removedSince x.start.state x.left = true ∧ j ≠ x.start.state.own ∧
            x.start.state.tabs.Listening j ∧ reason = .crossTab) ∧
        (removedSince x.start.state x.left = true →
          ∃ y ∈ ms ++ [x], y.number = x.number ∧ y.countsRetry = true) := by
  have hpasses : workplace.passes (scene plainPair) failedAttempt 3
      (fun ms x ms' _ => decide (Unfailing x.number (ms ++ x :: ms') ∧
        removedSince x.start.state x.left = true)) = true := by
    decide +kernel
  obtain ⟨ms, x, ms', s, hrun, htest⟩ := Workplace.exists_course hpasses
  obtain ⟨hunfailing, -⟩ := of_decide_eq_true htest
  exact ⟨ms, ms', x, s, sharing_plainPair, hrun, hunfailing,
    sharing_plainPair.check_ended_iff hrun hunfailing⟩

/-- A check that succeeds after a retry ends the session of the second tab. -/
theorem not_check_spares : ¬∀ (v : Vault) (c : Client) (ms : List Moment) (s : Scene) (n : Nat),
    Sharing v c → Course (scene c) ms s → Unfailing n ms →
      (∃ y ∈ ms, y.number = n ∧ y.succeeds = true) →
        ∀ x ∈ ms, x.number = n → ∀ j reason, j ≠ x.start.state.own →
          ¬Tabs.Ended j reason x.start.state.tabs x.left.tabs := by
  intro hclaim
  have hpasses : workplace.passes (scene plainPair) (failedAttempt ++
      [(⟨1748779202000000000⟩, .reply 1 (Wait.answer (.ok ⟨503, Table.empty, ""⟩)
          (.ok ⟨⟨"t2"⟩, some ⟨1748782800000000000⟩⟩))),
        (⟨1748779202000000000⟩, .reply 1 (Wait.answer
          (.ok ⟨200, Table.empty, "\x7b\"id\":\"u\"\x7d"⟩) (.error .loginRequired)))]) 3
      (fun ms x ms' _ => decide (Unfailing x.number (ms ++ x :: ms') ∧
        (∃ y ∈ ms ++ x :: ms', y.number = x.number ∧ Moment.succeeds y = true) ∧
          1 ≠ x.start.state.own ∧
            Tabs.Ended 1 .crossTab x.start.state.tabs x.left.tabs)) = true := by
    decide +kernel
  obtain ⟨ms, x, ms', s, hrun, htest⟩ := Workplace.exists_course hpasses
  obtain ⟨hunfailing, hsucceeds, hother, hended⟩ := of_decide_eq_true htest
  have hmem : x ∈ ms ++ x :: ms' := List.mem_append_right ms (List.mem_cons_self ..)
  exact hclaim _ plainPair _ s _ sharing_plainPair hrun hunfailing hsucceeds x hmem rfl 1 .crossTab
    hother hended

end Client

end ClientSession
