import ClientSession.Proofs.Client.Laws
import ClientSession.Proofs.Paths

/-!
# The trials of a pass

A pass is one attempt after another, with a back-off between two of them. As far as a pass has come,
it is told by its trials: where each attempt began, through which halts it went and what it came to.
Nothing else touches the session in the meantime.

- `Client.attemptChecks_eq`: the attempts of a pass, one at a time.
- `Client.trials_of_pass`: what a pass has come to is told by its trials.
- `Client.Trials.account`: how many there are, which of them failed, and when the pass is over.
-/

namespace ClientSession

open Activity

namespace Client

variable {policy : RetryPolicy} {left done : Nat} {now last : Instant} {c s : Client}
  {hs : List (Halt Client)} {r : Run Client ValidationResult}

/-- The session has not been touched, whatever else has changed. -/
structure SameSession (c c' : Client) : Prop where
  own : c'.own = c.own
  tabs : c'.tabs = c.tabs

protected theorem SameSession.refl (c : Client) : SameSession c c := ⟨rfl, rfl⟩

theorem SameSession.trans {c' c'' : Client} (h : SameSession c c') (h' : SameSession c' c'') :
    SameSession c c'' :=
  ⟨h'.own.trans h.own, h'.tabs.trans h.tabs⟩

theorem Aside.sameSession {c' : Client} (h : Aside c c') : SameSession c c' := ⟨h.own, h.tabs⟩

/-- The way of an activity while nothing else touches the session. -/
abbrev Way {α : Type} (r : Run Client α) (now : Instant) (hs : List (Halt Client))
    (r' : Run Client α) (last : Instant) : Prop :=
  Run.Path SameSession r now hs r' last

/-! ## Attempts -/

/-- Checks the token; but for the first time the credential is renewed before. -/
def attempt (done : Nat) : Activity Client (Except ApiError String) :=
  if 0 < done then do
    renewCredential
    checkToken
  else checkToken

/-- What follows an attempt, with so many attempts left. -/
def afterAttempt (policy : RetryPolicy) :
    (left done : Nat) → Except ApiError String → Activity Client ValidationResult
  | _, _, .ok user => do
    Activity.change fun now c =>
      c.trackAuth ((Event.auth "token_validated" true now).withUser user)
    return .ok user
  | 0, done, .error e => do
    Activity.change fun now c =>
      c.trackAuth ((Event.auth "token_validation_failed" false now).withError e.message)
    return .error (.exhausted (done + 1) e)
  | left + 1, done, .error _ => do
    countValidation .retry
    backOff policy done
    attemptChecks policy left (done + 1)

/-- The attempts of a pass, one at a time. -/
theorem attemptChecks_eq (policy : RetryPolicy) (left done : Nat) :
    attemptChecks policy left done = attempt done >>= afterAttempt policy left done := by
  have hfirst : ∀ (x : Activity Client ValidationResult) (f : Except ApiError String →
      Activity Client ValidationResult), x = checkToken >>= f →
      (if 0 < done then do
        let _ ← renewCredential
        x
      else x) = attempt done >>= f := by
    rintro _ f rfl
    unfold attempt
    by_cases h : 0 < done
    · simp only [if_pos h]
      funext now c
      exact (Run.bind_assoc (renewCredential now c) (fun _ => checkToken) f now).symm
    · simp only [if_neg h]
  cases left with
  | zero =>
      rw [attemptChecks]
      refine hfirst _ _ (congrArg _ (funext fun a => ?_))
      cases a <;> rfl
  | succ left =>
      rw [attemptChecks]
      refine hfirst _ _ (congrArg _ (funext fun a => ?_))
      cases a <;> rfl

/-! ## Trials -/

/-- An attempt of a pass, as far as it has come, and the halts of the back-off after it. -/
structure Trial where
  began : Instant
  start : Client
  halts : List (Halt Client)
  ended : Instant
  /-- What is left of the attempt. -/
  rest : Run Client (Except ApiError String)
  pauses : List (Halt Client)

namespace Trial

/-- The attempt has come to an end. -/
def Answers (t : Trial) (a : Except ApiError String) : Prop := ∃ s, t.rest = .done s a

/-- The attempt went that way, with so many before it. -/
def Goes (done : Nat) (t : Trial) : Prop :=
  Way (attempt done t.began t.start) t.began t.halts t.rest t.ended

end Trial

/-- The halts of trials, one after another. -/
def haltsOf (ts : List Trial) : List (Halt Client) := ts.flatMap fun t => t.halts ++ t.pauses

/-- The trials of a pass from where attempts are left, and what it has come to. -/
inductive Trials (policy : RetryPolicy) : (left done : Nat) → Instant → Client → List Trial →
    Run Client ValidationResult → Instant → Prop where
  /-- An attempt is being made. -/
  | under {left done : Nat} {now last : Instant} {c : Client} {hs : List (Halt Client)}
      {r : Run Client (Except ApiError String)} (h : Way (attempt done now c) now hs r last)
      (hends : ¬r.Ends) :
      Trials policy left done now c [⟨now, c, hs, last, r, []⟩]
        (r.bind (afterAttempt policy left done) last) last
  | succeeded {left done : Nat} {now last : Instant} {c s s' : Client} {hs : List (Halt Client)}
      {user : String} (h : Way (attempt done now c) now hs (.done s (.ok user)) last)
      (hs' : SameSession s s') :
      Trials policy left done now c [⟨now, c, hs, last, .done s (.ok user), []⟩]
        (.done s' (.ok user)) last
  | exhausted {done : Nat} {now last : Instant} {c s s' : Client} {hs : List (Halt Client)}
      {e : ApiError} (h : Way (attempt done now c) now hs (.done s (.error e)) last)
      (hs' : SameSession s s') :
      Trials policy 0 done now c [⟨now, c, hs, last, .done s (.error e), []⟩]
        (.done s' (.error (.exhausted (done + 1) e))) last
  /-- The pass backs off. -/
  | resting {left done : Nat} {now mid last : Instant} {c s : Client}
      {hs pauses : List (Halt Client)} {e : ApiError} {r : Run Client Unit}
      (h : Way (attempt done now c) now hs (.done s (.error e)) mid)
      (hb : Way (backOff policy done mid s.countRetry) mid pauses r last) (hends : ¬r.Ends) :
      Trials policy (left + 1) done now c [⟨now, c, hs, mid, .done s (.error e), pauses⟩]
        (r.bind (fun _ => attemptChecks policy left (done + 1)) last) last
  | again {left done : Nat} {now mid mid' last : Instant} {c s s' : Client}
      {hs pauses : List (Halt Client)} {e : ApiError} {ts : List Trial}
      {r : Run Client ValidationResult}
      (h : Way (attempt done now c) now hs (.done s (.error e)) mid)
      (hb : Way (backOff policy done mid s.countRetry) mid pauses (.done s' ()) mid')
      (hts : Trials policy left (done + 1) mid' s' ts r last) :
      Trials policy (left + 1) done now c
        (⟨now, c, hs, mid, .done s (.error e), pauses⟩ :: ts) r last

/-- What the attempts of a pass have come to is told by trials. -/
theorem trials_of_attemptChecks (h : Way (attemptChecks policy left done now c) now hs r last) :
    ∃ ts, Trials policy left done now c ts r last ∧ haltsOf ts = hs := by
  -- By induction on the attempts left: one more is told, and the others if it failed.
  induction left generalizing done now c hs with
  | zero =>
      rw [attemptChecks_eq] at h
      cases Run.Path.of_bind h with
      | within hfirst hends => exact ⟨_, .under hfirst hends, by simp [haltsOf]⟩
      | @beyond _ _ s a _ _ heq hfirst hrest =>
          subst heq
          cases a with
          | ok user =>
              cases hrest
              exact ⟨_, .succeeded hfirst (aside_trackAuth s _).sameSession, by simp [haltsOf]⟩
          | error e =>
              cases hrest
              exact ⟨_, .exhausted hfirst (aside_trackAuth s _).sameSession, by simp [haltsOf]⟩
  | succ left ih =>
      rw [attemptChecks_eq] at h
      cases Run.Path.of_bind h with
      | within hfirst hends => exact ⟨_, .under hfirst hends, by simp [haltsOf]⟩
      | @beyond _ _ s a mid _ heq hfirst hrest =>
          subst heq
          cases a with
          | ok user =>
              cases hrest
              exact ⟨_, .succeeded hfirst (aside_trackAuth s _).sameSession, by simp [haltsOf]⟩
          | error e =>
              -- The retry is counted at once, and then the pass backs off.
              have hpauses : Way ((backOff policy done mid s.countRetry).bind
                  (fun _ => attemptChecks policy left (done + 1)) mid) mid _ r last := hrest
              cases Run.Path.of_bind hpauses with
              | within hb hends => exact ⟨_, .resting hfirst hb hends, by simp [haltsOf]⟩
              | beyond heq hb hothers =>
                  subst heq
                  obtain ⟨ts, hts, hhalts⟩ := ih hothers
                  exact ⟨_, .again hfirst hb hts, by simp [haltsOf, ← hhalts]⟩

/-! ## The end of a pass -/

/-- What follows the attempts of a pass. -/
def closePass : ValidationResult → Activity Client ValidationResult
  | .ok user => do
    countValidation .success
    modify (·.mapValidator (·.settle (.authenticated user)))
    return .ok user
  | .error e => do
    countValidation .failure
    Activity.change giveUpPass
    return .error e

theorem runPass_eq (now : Instant) (c : Client) : runPass now c =
    (attemptChecks c.validator.retry c.validator.retry.maxRetries 0 now
      (c.mapValidator (·.count .attempt))).bind closePass now := by
  show Run.bind _ (attemptChecks c.validator.retry c.validator.retry.maxRetries 0 now
    (c.mapValidator (·.count .attempt))) now = _
  congr 1

/-- What has become of a pass when its attempts have come to this. -/
inductive Closes : Run Client ValidationResult → Run Client ValidationResult → Prop where
  | under {r : Run Client ValidationResult} {last : Instant} (hends : ¬r.Ends) :
      Closes r ((r.bind closePass last).guarded abandonPass)
  | succeeded {s s' : Client} {user : String} (h : SameSession s s') :
      Closes (.done s (.ok user)) (.done s' (.ok user))
  | exhausted {s s' : Client} {e : ValidationFailure} (hown : s'.own = s.own)
      (htabs : s'.tabs = s.tabs.endSession s.own .validationExhausted) :
      Closes (.done s (.error e)) (.done s' (.error e))

/-- What a pass has come to is told by its trials. -/
theorem trials_of_pass (h : Way (pass now c) now hs r last) :
    ∃ ts r₁, Trials c.validator.retry c.validator.retry.maxRetries 0 now
      (c.mapValidator (·.count .attempt)) ts r₁ last ∧ haltsOf ts = hs ∧ Closes r₁ r := by
  obtain ⟨r₂, hrun, rfl⟩ := Run.Path.of_guarded (r := runPass now c) h
  rw [runPass_eq] at hrun
  cases Run.Path.of_bind hrun with
  | @within r₁ hchecks hends =>
      obtain ⟨ts, hts, hhalts⟩ := trials_of_attemptChecks hchecks
      exact ⟨ts, r₁, hts, hhalts, .under hends⟩
  | @beyond _ _ s a mid _ heq hchecks hclose =>
      subst heq
      obtain ⟨ts, hts, hhalts⟩ := trials_of_attemptChecks hchecks
      cases a with
      | ok user =>
          cases hclose
          exact ⟨ts, _, hts, by rw [hhalts, List.append_nil], .succeeded ⟨rfl, rfl⟩⟩
      | error e =>
          cases hclose
          refine ⟨ts, _, hts, by rw [hhalts, List.append_nil], .exhausted ?_ ?_⟩
          · exact own_giveUpPass last _
          · exact tabs_giveUpPass last _

theorem ends_of_bind {α β : Type} {r : Run Client α} {f : α → Instant → Client → Run Client β}
    {now : Instant} {s : Client} {b : β} (h : r.bind f now = .done s b) : r.Ends := by
  cases r with
  | done s a => trivial
  | _ => cases h

theorem ends_of_guarded {α : Type} {r : Run Client α} {undo : Client → Client} {s : Client}
    {a : α} (h : r.guarded undo = .done s a) : r.Ends := by
  cases r with
  | done s a => trivial
  | _ => cases h

/-- A pass waits where its attempts do. -/
theorem Closes.wait {r₁ : Run Client ValidationResult} {w : Wait} {drop : Client → Client}
    {resume : w.Answer → Instant → Client → Run Client ValidationResult}
    (h : Closes r₁ (.wait s w drop resume)) : ∃ drop' resume', r₁ = .wait s w drop' resume' := by
  generalize hr : Run.wait s w drop resume = r at h
  cases h with
  | under hends =>
      cases r₁ with
      | done s a => exact absurd trivial hends
      | fault s e => cases hr
      | stay s => cases hr
      | wait s w drop' resume' =>
          cases hr
          exact ⟨drop', resume', rfl⟩
  | succeeded hsame => cases hr
  | exhausted hown htabs => cases hr

/-- A pass is over with what its attempts have come to. -/
theorem Closes.done_iff {r₁ : Run Client ValidationResult} (h : Closes r₁ r) (a : ValidationResult) :
    (∃ s, r = .done s a) ↔ ∃ s, r₁ = .done s a := by
  cases h with
  | @under _ last hends =>
      constructor
      · rintro ⟨s, hs⟩
        have hbind := ends_of_guarded hs
        cases r₁ with
        | done s a => exact absurd trivial hends
        | _ => exact hbind.elim
      · rintro ⟨s, rfl⟩
        exact absurd trivial hends
  | succeeded hsame =>
      constructor
      · rintro ⟨s, hs⟩
        cases hs
        exact ⟨_, rfl⟩
      · rintro ⟨s, hs⟩
        cases hs
        exact ⟨_, rfl⟩
  | exhausted hown htabs =>
      constructor
      · rintro ⟨s, hs⟩
        cases hs
        exact ⟨_, rfl⟩
      · rintro ⟨s, hs⟩
        cases hs
        exact ⟨_, rfl⟩

/-- A pass that has failed ends the session as its attempts have left it. -/
theorem Closes.ended {r₁ : Run Client ValidationResult} {e : ValidationFailure}
    (h : Closes r₁ (.done s (.error e))) : s.own = r₁.state.own ∧
      s.tabs = r₁.state.tabs.endSession r₁.state.own .validationExhausted := by
  generalize hr : Run.done s (Except.error e) = r at h
  cases h with
  | under hends =>
      have hbind := ends_of_guarded hr.symm
      cases r₁ with
      | done s a => exact absurd trivial hends
      | _ => exact hbind.elim
  | succeeded hsame => cases hr
  | exhausted hown htabs =>
      cases hr
      exact ⟨hown, htabs⟩

/-! ## Accounts -/

/-- The next trial begins where the back-off after a failed one has come to its end. -/
def Trial.Precedes (policy : RetryPolicy) (done : Nat) (t t' : Trial) : Prop :=
  ∃ s e, t.rest = .done s (.error e) ∧
    Way (backOff policy done t.ended s.countRetry) t.ended t.pauses (.done t'.start ()) t'.began

/-- An account of attempts: how many were left and how many had been made before, where the first of
them began, what they have come to, and the trials of them. Every trial but the last one has failed,
and the next one followed it. The attempts are over when the last one has succeeded, with that, or
when it has failed and none is left, with its error. -/
structure Account (policy : RetryPolicy) (left done : Nat) (now : Instant) (c : Client)
    (r : Run Client ValidationResult) (ts : List Trial) : Prop where
  most : ts.length ≤ left + 1
  opens : ∃ t, ts.head? = some t ∧ t.began = now ∧ t.start = c
  goes : ∀ (k : Nat) (t : Trial), ts[k]? = some t → t.Goes (done + k)
  precedes : ∀ (k : Nat) (t t' : Trial), ts[k]? = some t → ts[k + 1]? = some t' →
    t.Precedes policy (done + k) t'
  outcome : ∀ a, (∃ s, r = .done s a) ↔ ∃ t, ts.getLast? = some t ∧
    ((∃ user, t.Answers (.ok user) ∧ a = .ok user) ∨
      ∃ e, t.Answers (.error e) ∧ ts.length = left + 1 ∧ a = .error (.exhausted (done + left + 1) e))

theorem Account.ne_nil {ts : List Trial} (h : Account policy left done now c r ts) : ts ≠ [] := by
  rintro rfl
  obtain ⟨t, ht, -⟩ := h.opens
  cases ht

/-- The account of a single attempt. -/
theorem Account.single {t : Trial} (hgoes : t.Goes done)
    (houtcome : ∀ a, (∃ s, r = .done s a) ↔ (∃ user, t.Answers (.ok user) ∧ a = .ok user) ∨
      ∃ e, t.Answers (.error e) ∧ left = 0 ∧ a = .error (.exhausted (done + left + 1) e)) :
    Account policy left done t.began t.start r [t] where
  most := Nat.le_add_left 1 left
  opens := ⟨t, rfl, rfl, rfl⟩
  goes k t' ht := by
    cases k with
    | zero =>
        obtain rfl := Option.some.inj ht
        exact hgoes
    | succ k => cases ht
  precedes k t' t'' _ ht := by cases ht
  outcome a := by
    rw [houtcome]
    simp

theorem Account.cons {t : Trial} {ts : List Trial} (hgoes : t.Goes done)
    (hprecedes : ∀ t', t'.began = now → t'.start = c → t.Precedes policy done t')
    (h : Account policy left (done + 1) now c r ts) :
    Account policy (left + 1) done t.began t.start r (t :: ts) where
  most := Nat.succ_le_succ h.most
  opens := ⟨t, rfl, rfl, rfl⟩
  goes k t' ht := by
    cases k with
    | zero =>
        obtain rfl := Option.some.inj ht
        exact hgoes
    | succ k =>
        have hlater := h.goes k t' ht
        rwa [Nat.add_right_comm] at hlater
  precedes k t' t'' ht ht' := by
    cases k with
    | zero =>
        obtain rfl := Option.some.inj ht
        obtain ⟨first, hfirst, hnow, hc⟩ := h.opens
        rw [List.head?_eq_getElem?] at hfirst
        obtain rfl := Option.some.inj (hfirst.symm.trans ht')
        exact hprecedes _ hnow hc
    | succ k =>
        have hlater := h.precedes k t' t'' ht ht'
        rwa [Nat.add_right_comm] at hlater
  outcome a := by
    have hcount : done + 1 + left + 1 = done + (left + 1) + 1 := by omega
    rw [h.outcome a, List.getLast?_cons_of_ne_nil h.ne_nil, List.length_cons, Nat.succ_inj, hcount]

/-- Trials are accounted for. -/
theorem Trials.account {ts : List Trial} (h : Trials policy left done now c ts r last) :
    Account policy left done now c r ts := by
  induction h with
  | @under left done now last c hs r h hends =>
      refine .single (t := ⟨now, c, hs, last, r, []⟩) h fun a => ⟨?_, ?_⟩
      · rintro ⟨s, hs⟩
        exact absurd (ends_of_bind hs) hends
      · rintro (⟨user, ⟨s, rfl⟩, -⟩ | ⟨e, ⟨s, rfl⟩, -⟩) <;> exact absurd trivial hends
  | @succeeded left done now last c s s' hs user h hsame =>
      refine .single (t := ⟨now, c, hs, last, .done s (.ok user), []⟩) h fun a => ⟨?_, ?_⟩
      · rintro ⟨_, hs⟩
        cases hs
        exact .inl ⟨user, ⟨s, rfl⟩, rfl⟩
      · rintro (⟨_, ⟨_, heq⟩, rfl⟩ | ⟨_, ⟨_, heq⟩, -⟩)
        · cases heq
          exact ⟨s', rfl⟩
        · cases heq
  | @exhausted done now last c s s' hs e h hsame =>
      refine .single (t := ⟨now, c, hs, last, .done s (.error e), []⟩) h fun a => ⟨?_, ?_⟩
      · rintro ⟨_, hs⟩
        cases hs
        exact .inr ⟨e, ⟨s, rfl⟩, rfl, rfl⟩
      · rintro (⟨_, ⟨_, heq⟩, -⟩ | ⟨_, ⟨_, heq⟩, -, rfl⟩)
        · cases heq
        · cases heq
          exact ⟨s', rfl⟩
  | @resting left done now mid last c s hs pauses e r h hb hends =>
      refine .single (t := ⟨now, c, hs, mid, .done s (.error e), pauses⟩) h fun a => ⟨?_, ?_⟩
      · rintro ⟨_, hs⟩
        exact absurd (ends_of_bind hs) hends
      · rintro (⟨_, ⟨_, heq⟩, -⟩ | ⟨_, -, hleft, -⟩)
        · cases heq
        · cases hleft
  | @again left done now mid mid' last c s s' hs pauses e ts r h hb hts ih =>
      refine ih.cons (t := ⟨now, c, hs, mid, .done s (.error e), pauses⟩) h ?_
      rintro t' rfl rfl
      exact ⟨s, e, rfl, hb⟩

/-- An account of a pass: it begins where the attempt is counted, with all retries left. -/
abbrev PassAccount (now : Instant) (c : Client) (r : Run Client ValidationResult)
    (ts : List Trial) : Prop :=
  Account c.validator.retry c.validator.retry.maxRetries 0 now (c.mapValidator (·.count .attempt))
    r ts

theorem Closes.account {r₁ : Run Client ValidationResult} {ts : List Trial} (h : Closes r₁ r)
    (hts : Account policy left done now c r₁ ts) : Account policy left done now c r ts :=
  ⟨hts.most, hts.opens, hts.goes, hts.precedes, fun a => (h.done_iff a).trans (hts.outcome a)⟩

end Client

end ClientSession
