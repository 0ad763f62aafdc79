import ClientSession.Proofs.Client.Turns
import ClientSession.Proofs.Client.Elsewhere
import ClientSession.Proofs.Headcount

/-!
# What becomes of the validator

A pass that was begun leaves the validator as it is until it ends, and then settles it with its
verdict; a pass that is dropped leaves it idle. No other work touches it but signing out, which
resets it.

- `Client.examines_pass`: a pass, from where it was begun to its verdict.
- `Client.examines_validate`, `Client.examines_validateSession`: the checks that callers ask for.
- `Client.status_carryOut`: all other work.
-/

namespace ClientSession

open Activity

namespace Client

variable {α : Type} {c : Client} {D V : Start Client → ValidationState → Prop}
  {G H : Start Client → Prop}

/-- What the validator is at. -/
def status (c : Client) : ValidationState := c.validator.state

/-- The state in which a pass with this result leaves the validator. -/
def verdict : ValidationResult → ValidationState
  | .ok user => .authenticated user
  | .error _ => .expired

theorem verdict_ne_validating (r : ValidationResult) : verdict r ≠ .validating := by
  cases r <;> exact nofun

theorem status_setTabs (c : Client) (w : Tabs) : (c.setTabs w).status = c.status := by
  unfold setTabs
  dsimp only
  split <;> rfl

theorem status_abandonJob (c : Client) (j : Job) : (c.abandonJob j).status = c.status := by
  unfold abandonJob
  split <;> first | split <;> rfl | rfl

theorem status_ite_announce (c : Client) (n : Notice) (now : Instant) :
    (if c.announces then c.announce n now else c).status = c.status := by
  split <;> rfl

theorem status_giveUpPass (c : Client) (now : Instant) : (c.giveUpPass now).status = .expired := by
  unfold giveUpPass
  dsimp only
  exact status_ite_announce _ _ _

/-! ## What stretches leave -/

/-- What stretches leave the validator at, and what drops do. -/
def watching (D V : Start Client → ValidationState → Prop) : Pact Unit Client := fun _ i p c _ =>
  match p with
  | .drops => D i c.status
  | _ => V i c.status

/-- What is known of the validator lasts through calls, as nothing in them touches it. -/
theorem watched_lasting (hD : ∀ now c, D ⟨none, now, c⟩ c.status)
    (hV : ∀ q now c, V ⟨some q, now, c⟩ c.status) :
    Lasting (watching D V) (fun _ i c => V i c.status) fun _ i c => V i c.status where
  aside _ i c c' h ha := by
    show V i c'.validator.state
    rw [ha.state]
    exact h
  recalls _ i c w h _ := by
    rw [status_setTabs]
    exact h
  faults _ _ _ h := h
  stays _ _ _ h := h
  drops _ i c c' h ha := by
    show D i c'.validator.state
    rw [ha.state]
    exact h
  waits _ _ _ _ h _ := ⟨(), h, hD, fun _ now c _ => hV _ now c, fun t now c _ => by
    show V _ (c.setTabs _).status
    rw [status_setTabs]
    exact hV _ now c⟩
  calls _ _ _ _ h := ⟨(), h, fun now c => hD now c, fun _ now c => hV _ now c⟩
  refuses _ i c h _ := by
    show V i (c.setTabs _).status
    rw [status_setTabs]
    exact h

/-! ## Passes -/

/-- A pass leaves the validator at its check until it ends; `G` is known of it, and `H` says when it
was at its check before. -/
def examining (G H : Start Client → Prop) : Pact Unit Client := fun _ i p c _ =>
  match p with
  | .drops => c.status = .idle
  | .stays => False
  | _ => G i ∧ (H i → c.status = .validating)

/-- The pass has not been refused. -/
def Examined (r : ValidationResult) : Prop := r ≠ .error .inProgress

theorem examined_ok (user : String) : Examined (.ok user) := by
  intro h
  cases h

theorem examined_exhausted (attempts : Nat) (e : ApiError) :
    Examined (.error (.exhausted attempts e)) := by
  intro h
  cases h

/-- An activity has answers of a kind only. -/
def Yields (φ : α → Prop) (x : Activity Client α) : Prop :=
  Triple (fun _ _ _ _ _ => True : Pact Unit Client) (fun _ _ _ => True) x fun _ _ a _ => φ a

theorem yields_bind_of {β : Type} {φ : α → Prop} {φ' : β → Prop} {x : Activity Client α}
    {f : α → Activity Client β} (hx : Yields φ x) (hf : ∀ a, φ a → Yields φ' (f a)) :
    Yields φ' (x >>= f) :=
  Triple.bind hx fun a => ⟨fun m i s h => (hf a h).meets m i s trivial⟩

theorem yields_bind {β : Type} {φ : β → Prop} {x : Activity Client α} {f : α → Activity Client β}
    (hf : ∀ a, Yields φ (f a)) : Yields φ (x >>= f) :=
  yields_bind_of (φ := fun _ => True)
    ⟨fun _ _ _ _ => Run.meets_trivial (fun _ _ _ _ => trivial) fun _ _ _ _ => trivial⟩
    fun a _ => hf a

theorem yields_pure {φ : α → Prop} {a : α} (h : φ a) :
    Yields φ (pure a : Activity Client α) := triple_pure fun _ _ _ _ => h

theorem yields_ite {φ : α → Prop} {b : Prop} [Decidable b] {x y : Activity Client α}
    (hx : Yields φ x) (hy : Yields φ y) : Yields φ (if b then x else y) :=
  Triple.ite (fun _ => hx) fun _ => hy

theorem yields_attemptChecks (policy : RetryPolicy) (left done : Nat) :
    Yields Examined (attemptChecks policy left done) := by
  have hfirst : ∀ (n : Nat) {x : Activity Client ValidationResult}, Yields Examined x →
      Yields Examined (if 0 < n then do
        let _ ← renewCredential
        x
      else x) := fun _ _ hx => yields_ite (yields_bind fun _ => hx) hx
  induction left generalizing done with
  | zero =>
      rw [attemptChecks]
      refine hfirst _ (yields_bind fun r => ?_)
      cases r with
      | ok user => exact yields_bind fun _ => yields_pure (examined_ok user)
      | error e => exact yields_bind fun _ => yields_pure (examined_exhausted _ e)
  | succ left ih =>
      rw [attemptChecks]
      refine hfirst _ (yields_bind fun r => ?_)
      cases r with
      | ok user => exact yields_bind fun _ => yields_pure (examined_ok user)
      | error e => exact yields_bind fun _ => yields_bind fun _ => ih (done + 1)

theorem yields_runPass : Yields Examined runPass := by
  refine yields_bind fun _ => yields_bind fun c => ?_
  refine yields_bind_of (yields_attemptChecks _ _ 0) fun r hr => ?_
  cases r with
  | ok user => exact yields_bind fun _ => yields_bind fun _ => yields_pure hr
  | error e =>
      exact yields_bind fun _ => yields_bind fun _ => yields_bind fun _ => yields_bind fun _ =>
        yields_pure hr

theorem concluding_watched (hD : ∀ now c, D ⟨none, now, c⟩ c.status)
    (hV : ∀ q now c, V ⟨some q, now, c⟩ c.status) :
    Concluding (watching D V) (fun _ i c => V i c.status) (fun _ i c => V i c.status)
      fun _ i r c => (∃ s, V i s) ∧ c.status = verdict r where
  first := (watched_lasting hD hV).calling
  later := (watched_lasting hD hV).calling
  retries _ _ _ h := h.elim id id
  clears _ i c h := by
    show V i (c.setTabs _).status
    rw [status_setTabs]
    exact h
  succeeds _ _ _ _ h := ⟨⟨_, h.elim id id⟩, rfl⟩
  fails _ i c _ h := ⟨⟨_, h.elim id id⟩, status_giveUpPass c i.now⟩

/-- Where a pass begins or goes on, `G` is known and the validator is at its check if `H` says so. -/
def Begun (G H : Start Client → Prop) (_ : Unit) (i : Start Client) (c : Client) : Prop :=
  (G i ∧ (H i → c.status = .validating)) ∧ c.supervisor.turn = i.state.supervisor.turn

/-- A pass that was begun. -/
theorem examines_pass (hG : ∀ q now c, G ⟨some q, now, c⟩)
    (hH : ∀ q now c, H ⟨some q, now, c⟩ → c.status = .validating) :
    Triple (examining G H) (Begun G H) pass
      fun _ i r c => G i ∧ c.status = verdict r ∧ Examined r := by
  have hwatched := (concluding_watched (D := fun _ _ => True)
    (V := fun i s => G i ∧ (H i → s = .validating)) (fun _ _ => trivial)
    fun q now c => ⟨hG q now c, hH q now c⟩).runPass
  -- It is not resumed too early, and its answer is not that it was refused.
  have hspares : SparesTurn False runPass := sparesTurn_runPass
  have hall := (hwatched.and hspares).and yields_runPass
  refine (show Triple (examining G H) _ pass _ from hall.guarded_of ?_ ?_).conseq ?_ ?_
  · intro m i p c m' hp h
    cases p with
    | drops => exact absurd rfl hp
    | stays => exact h.1.2.1 rfl
    | waits w => exact h.1.1
    | faults => exact h.1.1
  · intro m i c _
    rfl
  · intro m i c h
    exact ⟨h, trivial⟩
  · rintro m i r c ⟨⟨⟨⟨s, hs⟩, hverdict⟩, -⟩, hexamined⟩
    exact ⟨hs.1, hverdict, hexamined⟩

/-! ## Checks that callers ask for -/

/-- The check was not refused: where it began, the validator was at no other. -/
def Granted (i : Start Client) : Prop := i.cue = none → i.state.status ≠ .validating

/-- The check has just begun, or went on where the validator was at it. -/
def AtCheck (i : Start Client) : Prop := i.cue = none ∨ i.state.status = .validating

/-- How a check ends that a caller asked for: it is refused while the validator is at another, or it
ends as a pass does. -/
def Resolved (i : Start Client) (r : ValidationResult) (c : Client) : Prop :=
  (r = .error .inProgress ∧ i.cue = none ∧ i.state.status = .validating ∧ c = i.state) ∨
    (Granted i ∧ c.status = verdict r ∧ Examined r)

theorem tryBegin_of_validating (h : c.status = .validating) : c.tryBegin = (false, c) := by
  have hfalse : c.validator.tryBegin = (false, c.validator) := if_pos h
  rw [tryBegin, hfalse]

theorem tryBegin_of_free (h : c.status ≠ .validating) :
    c.tryBegin = (true, c.mapValidator (·.settle .validating)) := by
  have htrue : c.validator.tryBegin = (true, c.validator.settle .validating) := if_neg h
  rw [tryBegin, htrue]
  rfl

theorem examines_validate :
    Triple (examining Granted AtCheck) Opening validate fun _ i r c => Resolved i r c := by
  refine Triple.bind (M := fun _ i begun c => i.cue = none ∧ if begun = true then
    Begun Granted AtCheck () i c else i.state.status = .validating ∧ c = i.state)
    (triple_step ?_) fun begun => Triple.ite (fun hbegun => ?_) fun hbegun => triple_pure ?_
  · rintro m i _ ⟨hcue, rfl⟩
    refine ⟨hcue, ?_⟩
    by_cases hstatus : i.state.status = .validating
    · rw [tryBegin_of_validating hstatus, if_neg Bool.false_ne_true]
      exact ⟨hstatus, rfl⟩
    · rw [tryBegin_of_free hstatus, if_pos rfl]
      exact ⟨⟨fun _ => hstatus, fun _ => rfl⟩, rfl⟩
  · refine (examines_pass (fun q now c => nofun) fun q now c h => ?_).conseq ?_ ?_
    · exact h.resolve_left nofun
    · rintro m i c ⟨-, h⟩
      rw [if_pos hbegun] at h
      exact h
    · intro m i r c h
      exact .inr h
  · rintro m i c ⟨hcue, h⟩
    rw [if_neg hbegun] at h
    exact .inl ⟨rfl, hcue, h.1, h.2⟩

theorem examines_validateSession :
    Triple (examining Granted AtCheck) Opening validateSession
      fun _ i r c => Resolved i r c := by
  refine Triple.bind examines_validate fun r => ?_
  cases r with
  | error e => exact triple_pure fun m i c h => h
  | ok user =>
      have hok : ∀ {i c} (f : Client → Client), (f c).status = c.status →
          Resolved i (.ok user) c → Resolved i (.ok user) (f c) := by
        rintro i c f hf (⟨hr, -⟩ | ⟨hgranted, hstatus, hexamined⟩)
        · cases hr
        · exact .inr ⟨hgranted, hf.trans hstatus, hexamined⟩
      refine Triple.bind (M := fun _ i _ c => Resolved i (.ok user) c)
        (triple_modify fun m i c h => ?_) fun _ => ?_
      · refine hok (fun c => if c.supervisor.isRunning then c else c.mapSupervisor (·.start)) ?_ h
        split <;> rfl
      · exact Triple.bind (M := fun _ i _ c => Resolved i (.ok user) c)
          (triple_modify fun m i c h => hok (·.setUser (some user)) rfl h) fun _ =>
            triple_pure fun m i c h => h

/-- Work that checks the token. -/
theorem examines_serve {k : Operation} (hk : checks (.call k) = true) :
    Triple (examining Granted AtCheck) Opening (Client.serve k)
      fun _ i a c => ∃ r, a = .validated r ∧ Resolved i r c := by
  rcases eq_of_checks hk with hwork | hwork
  · cases hwork
    exact Triple.map (examines_validate.conseq (fun _ _ _ h => h) fun m i r c h => ⟨r, rfl, h⟩)
  · cases hwork
    exact Triple.map (examines_validateSession.conseq (fun _ _ _ h => h)
      fun m i r c h => ⟨r, rfl, h⟩)

/-! ## All other work -/

/-- No stretch touches the validator. -/
def unwatched : Pact Unit Client :=
  watching (fun i s => s = i.state.status) fun i s => s = i.state.status

/-- The validator is as it was. -/
def Unwatched (_ : Unit) (i : Start Client) (c : Client) : Prop := c.status = i.state.status

theorem unwatched_lasting : Lasting unwatched Unwatched Unwatched :=
  watched_lasting (fun _ _ => rfl) fun _ _ _ => rfl

/-- The state of a validator once it has been reset. -/
def resetStatus (s : ValidationState) : ValidationState :=
  if s = .validating then s else .idle

theorem state_reset (v : Validator) : v.reset.state = resetStatus v.state := by
  unfold Validator.reset resetStatus
  split <;> rfl

/-- What an operation other than a check leaves the validator at. -/
def leaves (k : Operation) (s : ValidationState) : ValidationState :=
  match k with
  | .logout => resetStatus s
  | _ => s

theorem status_logout (c : Client) : c.logout.status = resetStatus c.status := by
  show (c.mapTabs _).validator.reset.state = _
  rw [state_reset]
  exact congrArg resetStatus (status_setTabs c _)

theorem status_act (c : Client) (tab : Nat) (action : TabAction) (now : Instant) :
    (c.act tab action now).2.status = c.status := by
  unfold Client.act
  split
  · exact status_setTabs c _
  · rfl

theorem status_start (c : Client) (now : Instant) : (c.start now).status = c.status := by
  unfold Client.start
  dsimp only
  split
  · exact status_setTabs _ _
  · exact status_setTabs _ _

theorem status_login (c : Client) (t : BearerToken) (e : Option Instant) (now : Instant) :
    (c.login t e now).2.status = c.status := by
  unfold Client.login
  have hinstall := status_setTabs c (c.tabs.install c.own t e).2
  dsimp only
  split
  · generalize c.setTabs (c.tabs.install c.own t e).2 = d at hinstall
    have hread := status_setTabs d (d.tabs.userId d.own now).2
    generalize d.setTabs (d.tabs.userId d.own now).2 = d' at hread
    exact hread.trans hinstall
  · exact hinstall

/-- Where it begins, the validator is as it was. -/
theorem unwatched_opening {x : Activity Client α} {Q : Unit → Start Client → α → Client → Prop}
    (h : Triple unwatched Unwatched x Q) : Triple unwatched Opening x Q :=
  opening_of h fun _ _ => rfl

/-- Only signing out touches the validator, and does so where it begins. -/
theorem status_serve {k : Operation} (hk : checks (.call k) = false) :
    Triple unwatched Opening (Client.serve k) fun _ i _ c =>
      c.status = leaves k i.state.status ∧ (k = .logout → i.cue = none) := by
  have hkeeps : ∀ {β : Type} {x : Activity Client β} {f : β → Reply}, k ≠ .logout →
      leaves k = id → Maintains unwatched Unwatched x →
        Triple unwatched Opening (do return f (← x)) fun _ i _ c =>
          c.status = leaves k i.state.status ∧ (k = .logout → i.cue = none) :=
    fun hne hid h => Triple.map ((unwatched_opening h).conseq (fun _ _ _ h => h)
      fun _ _ _ _ h => ⟨by rw [hid]; exact h, fun heq => absurd heq hne⟩)
  have hmodify : ∀ {f : Client → Client}, k ≠ .logout → leaves k = id →
      (∀ c, (f c).status = c.status) →
        Triple unwatched Opening (do modify f; return Reply.done) fun _ i _ c =>
          c.status = leaves k i.state.status ∧ (k = .logout → i.cue = none) :=
    fun hne hid hf => hkeeps hne hid (triple_modify fun m i c h => (hf c).trans h)
  have hrefresh : ∀ force, Maintains unwatched Unwatched (refresh force) := fun force =>
    (unwatched_lasting.refresh unwatched_lasting.aside unwatched_lasting.aside
      (fun _ _ _ h => h) force).conseq (fun _ _ _ h => h) fun _ _ _ _ h => h.elim id id
  cases k with
  | validate => cases hk
  | validateSession => cases hk
  | start =>
      exact hkeeps nofun rfl (triple_change fun m i c h => (status_start c i.now).trans h)
  | login t e =>
      exact hkeeps nofun rfl (triple_step fun m i c h => (status_login c t e i.now).trans h)
  | logout =>
      refine Triple.bind (M := fun _ i _ c => c.status = resetStatus i.state.status ∧ i.cue = none)
        (triple_modify ?_) fun _ => triple_pure fun _ _ _ h => ⟨h.1, fun _ => h.2⟩
      rintro m i _ ⟨hcue, rfl⟩
      exact ⟨status_logout i.state, hcue⟩
  | refresh force => exact hkeeps nofun rfl (hrefresh force)
  | send r => exact hkeeps nofun rfl (unwatched_lasting.calling.send r)
  | sendWithRetry r => exact hkeeps nofun rfl (unwatched_lasting.calling.sendWithRetry r)
  | armTimers => exact hmodify nofun rfl fun c => rfl
  | stopTimers => exact hmodify nofun rfl fun c => rfl
  | setVisibility inBackground => exact hmodify nofun rfl fun c => rfl
  | trackAuth e => exact hmodify nofun rfl fun c => rfl
  | trackRequest e => exact hkeeps nofun rfl (unwatched_lasting.trackRequest e)
  | flushAuth =>
      exact hkeeps nofun rfl (unwatched_lasting.telemetry Batcher.unattributing_flushAuth)
  | flushRequests =>
      exact hkeeps nofun rfl (unwatched_lasting.telemetry Batcher.unattributing_flushRequests)
  | teardown => exact hkeeps nofun rfl (triple_step fun m i c h => h)
  | onTab tab action =>
      refine (unwatched_opening (triple_step fun m i c h => ?_)).conseq (fun _ _ _ h => h)
        fun _ _ _ _ h => ⟨h, nofun⟩
      exact (status_act c tab action i.now).trans h

theorem status_perform (j : Job) :
    Triple unwatched Opening (Client.perform j) fun _ i _ c => c.status = i.state.status := by
  cases j with
  | telemetry job =>
      exact unwatched_opening (Maintains.map
        (unwatched_lasting.telemetry (Batcher.unattributing_perform job)))
  | supervision job =>
      cases job with
      | refreshTimer n =>
          have hwatch := unwatched_lasting.watchRefresh unwatched_lasting.aside
            unwatched_lasting.aside (fun _ _ _ h => h) n
          exact unwatched_opening (Triple.bind hwatch fun again =>
            triple_pure fun m i c h => h.elim id id)
      | expiryTimer n =>
          have hwatch := unwatched_lasting.watchExpiry (E := Unwatched) (n := n)
            fun m i c h _ => ?_
          · exact unwatched_opening (Triple.bind hwatch fun again =>
              triple_pure fun m i c h => by cases again <;> exact h)
          · show (c.readExpiry.mapTabs _).status = _
            exact (status_setTabs _ _).trans ((status_setTabs _ _).trans h)

end Client

end ClientSession
