import ClientSession.Proofs.Client.Operations

/-!
# Clients at rest

A client is at rest when none of its timers is armed, events name no user, and nobody is taken to be
authenticated. Signing out puts it to rest. What is begun while nobody signs in, starts, refreshes
or checks the session leaves it at rest; what was begun before may not.

- `atRest_iff_rouses`: a client that has signed out stays at rest if and only if no stretch rouses
  it.
-/

namespace ClientSession

open Activity

namespace Client

variable {c c' : Client}

structure AtRest (c : Client) : Prop where
  refreshTimer : c.supervisor.isRunning = false
  expiryTimer : c.supervisor.hasTimeout = false
  user : c.batcher.user = none
  unchecked : ∀ user, c.validator.state ≠ .authenticated user

theorem AtRest.aside (h : AtRest c) (ha : Aside c c') : AtRest c' where
  refreshTimer := by
    rw [Supervisor.isRunning, ha.refreshTask]
    exact h.refreshTimer
  expiryTimer := by
    rw [Supervisor.hasTimeout, ha.expiryTask]
    exact h.expiryTimer
  user := ha.user.trans h.user
  unchecked := ha.state ▸ h.unchecked

/-- A change of the tabs stops work or nothing. -/
theorem AtRest.setTabs (h : AtRest c) (w : Tabs) : AtRest (c.setTabs w) := by
  unfold Client.setTabs
  dsimp only
  split
  · exact ⟨rfl, rfl, rfl, h.unchecked⟩
  · exact ⟨h.refreshTimer, h.expiryTimer, h.user, h.unchecked⟩

theorem hasWorkers_setTabs (c : Client) (w : Tabs) :
    (c.setTabs w).supervisor.hasWorkers = c.supervisor.hasWorkers := by
  unfold Client.setTabs
  dsimp only
  split
  · show c.supervisor.shutdown.hasWorkers = _
    unfold Supervisor.shutdown Supervisor.stop
    cases c.supervisor.refreshTask <;> cases c.supervisor.expiryTask <;> rfl
  · rfl

theorem AtRest.settle (h : AtRest c) (state : ValidationState)
    (hs : ∀ user, state ≠ .authenticated user) : AtRest (c.mapValidator (·.settle state)) :=
  ⟨h.refreshTimer, h.expiryTimer, h.user, hs⟩

theorem AtRest.tryBegin (h : AtRest c) : AtRest c.tryBegin.2 := by
  refine ⟨h.refreshTimer, h.expiryTimer, h.user, fun user => ?_⟩
  show c.validator.tryBegin.2.state ≠ _
  unfold Validator.tryBegin
  split
  · exact h.unchecked user
  · exact nofun

theorem AtRest.giveUpPass (h : AtRest c) (now : Instant) : AtRest (c.giveUpPass now) := by
  have hend := (h.setTabs (c.tabs.endSession c.own .validationExhausted)).settle .expired
    fun _ => nofun
  unfold Client.giveUpPass
  dsimp only
  split
  · exact ⟨hend.refreshTimer, hend.expiryTimer, hend.user, hend.unchecked⟩
  · exact hend

theorem AtRest.expire (h : AtRest c) (task : Nat) : AtRest (c.expire task) := by
  have hend := h.setTabs (c.tabs.endSession c.own .expired)
  refine ⟨?_, ?_, hend.user, hend.unchecked⟩ <;> unfold Client.expire mapSupervisor <;>
    dsimp only <;> split
  · exact hend.refreshTimer
  · exact hend.refreshTimer
  · rfl
  · exact hend.expiryTimer

theorem AtRest.abandonJob (h : AtRest c) (j : Job) : AtRest (c.abandonJob j) := by
  unfold Client.abandonJob
  split
  · split <;> exact h.aside ⟨rfl, rfl, rfl, rfl, rfl, rfl, rfl, rfl, Nat.le_refl _⟩
  · split <;> exact h.aside ⟨rfl, rfl, rfl, rfl, rfl, rfl, rfl, rfl, Nat.le_refl _⟩
  · split
    · exact ⟨rfl, h.expiryTimer, h.user, h.unchecked⟩
    · exact h
  · split
    · exact ⟨h.refreshTimer, rfl, h.user, h.unchecked⟩
    · exact h
  · exact h

/-- Signing out puts a client to rest. -/
theorem atRest_logout (c : Client) : AtRest c.logout where
  refreshTimer := rfl
  expiryTimer := rfl
  user := rfl
  unchecked user := by
    show (c.mapTabs _).validator.reset.state ≠ _
    unfold Validator.reset
    split
    · rename_i hv
      rw [hv]
      exact nofun
    · exact nofun

theorem AtRest.teardown (h : AtRest c) (now : Instant) : AtRest (c.teardown now).2 where
  refreshTimer := rfl
  expiryTimer := rfl
  user := (Batcher.user_shutdown _).trans ((Batcher.user_flushOnUnload c.batcher now).trans h.user)
  unchecked := h.unchecked

theorem hasTimeout_armTimeout (s : Supervisor) : s.armTimeout.hasTimeout = s.hasWorkers := by
  unfold Supervisor.armTimeout Supervisor.startTask Supervisor.hasTimeout
  cases s.hasWorkers <;> rfl

theorem isRunning_armTimeout (s : Supervisor) : s.armTimeout.isRunning = s.isRunning := by
  unfold Supervisor.armTimeout Supervisor.startTask Supervisor.isRunning Supervisor.stop
  cases s.hasWorkers <;> cases s.expiryTask <;> rfl

/-! ## Stretches -/

/-- A stretch that begins at rest leaves the client at rest. -/
def Rests (_ : Unit) (i : Start Client) (c : Client) : Prop := AtRest i.state → AtRest c

/-- Every stretch that pauses is such a stretch. -/
def Resting : Pact Unit Client := fun m i _ c _ => Rests m i c

/-- No token was stored since the stretch began. -/
def Unstored (m : Unit) (i : Start Client) (c : Client) : Prop := i.stores = false ∧ Rests m i c

/-- The token with which the stretch began was stored. -/
def Stored (m : Unit) (i : Start Client) (c : Client) : Prop :=
  i.stores = true ∧ c.supervisor.hasWorkers = i.state.supervisor.hasWorkers ∧ Rests m i c

/-- Where there are timers at all, a stored token has armed the expiry timer. -/
def Renewed (m : Unit) (i : Start Client) (c : Client) : Prop :=
  if i.stores && i.state.supervisor.hasWorkers then c.supervisor.hasTimeout = true else Rests m i c

theorem rests_enduring : Enduring Resting Rests Rests where
  aside _ _ _ _ h ha hi := (h hi).aside ha
  recalls _ _ _ w h _ hi := (h hi).setTabs w
  faults _ _ _ h := h
  stays _ _ _ h := h
  drops _ _ _ _ h ha hi := (h hi).aside ha
  waits _ _ _ _ h _ := ⟨(), h, fun _ _ => id, fun _ _ _ _ => id, fun _ _ _ _ h => h.setTabs _⟩
  calls _ _ _ _ h := ⟨(), h, fun _ _ => id, fun _ _ _ => id⟩

theorem rests_lasting : Lasting Resting Rests Rests where
  toEnduring := rests_enduring
  refuses _ _ _ h _ hi := (h hi).setTabs _

theorem unstored_patient : Patient Resting Unstored Stored where
  aside m i c c' h ha := ⟨h.1, rests_enduring.aside m i c c' h.2 ha⟩
  recalls m i c w h hw := ⟨h.1, rests_enduring.recalls m i c w h.2 hw⟩
  faults _ _ _ h := h.2
  stays _ _ _ h := h.2
  drops := rests_enduring.drops
  waits _ _ _ _ h _ := by
    refine ⟨(), h.2, fun _ _ => id, fun q now c hq => ⟨stores_of_storable? hq, id⟩,
      fun t now c ht => ?_⟩
    exact ⟨stores_token ht, hasWorkers_setTabs c _, fun h => h.setTabs _⟩

theorem Stored.aside {m : Unit} {i : Start Client} (h : Stored m i c) (ha : Aside c c') :
    Stored m i c' :=
  ⟨h.1, ha.hasWorkers.trans h.2.1, rests_enduring.aside m i c c' h.2.2 ha⟩

theorem Renewed.aside {m : Unit} {i : Start Client} (h : Renewed m i c) (ha : Aside c c') :
    Renewed m i c' := by
  unfold Renewed at h ⊢
  split at h
  · rw [if_pos ‹_›, Supervisor.hasTimeout, ha.expiryTask]
    exact h
  · rw [if_neg ‹_›]
    exact fun hi => (h hi).aside ha

theorem Stored.renewed {m : Unit} {i : Start Client} (h : Stored m i c) :
    Renewed m i (c.mapSupervisor (·.armTimeout)) := by
  obtain ⟨hstores, hworkers, hrests⟩ := h
  have hexpiry : (c.mapSupervisor (·.armTimeout)).supervisor.hasTimeout =
      i.state.supervisor.hasWorkers := (hasTimeout_armTimeout c.supervisor).trans hworkers
  unfold Renewed
  rw [hstores, Bool.true_and]
  split
  · rename_i hw
    exact hexpiry.trans hw
  · rename_i hw
    intro hi
    have hrest := hrests hi
    refine ⟨?_, hexpiry.trans (Bool.eq_false_iff.mpr hw), hrest.user, hrest.unchecked⟩
    exact (isRunning_armTimeout c.supervisor).trans hrest.refreshTimer

theorem Unstored.renewed {m : Unit} {i : Start Client} (h : Unstored m i c) : Renewed m i c := by
  unfold Renewed
  rw [h.1]
  exact h.2

theorem renewed_refresh (force : Bool) :
    Triple Resting Unstored (Client.refresh force) fun m i _ c => Renewed m i c :=
  (unstored_patient.refresh (fun _ _ _ _ h => h.aside) (fun _ _ _ _ h => h.aside)
    (fun _ _ _ h => h.renewed) force).conseq (fun _ _ _ h => h)
      fun _ _ _ _ h => h.elim (·.renewed) id

/-- What a check leaves: the user is authenticated if it succeeds. -/
def Authenticates (m : Unit) (i : Start Client) (r : ValidationResult) (c : Client) : Prop :=
  match r with
  | .ok user => c.validator.state = .authenticated user
  | .error _ => Rests m i c

/-- A client that a check found at rest is at rest afterwards unless the check succeeded. -/
def Checked (i : Start Client) (e : Ending Reply Job) (c : Client) : Prop :=
  AtRest i.state → (AtRest c ↔ confirms e = false)

theorem Authenticates.checked {m : Unit} {i : Start Client} {r : ValidationResult}
    (h : Authenticates m i r c) : Checked i (.answers (.validated r)) c := by
  intro hi
  cases r with
  | ok user =>
      constructor
      · intro hc
        exact absurd h (hc.unchecked user)
      · intro hf
        cases hf
  | error e => exact ⟨fun _ => rfl, fun _ => h hi⟩

theorem rests_passing : Passing Resting Rests Rests Authenticates where
  first := rests_lasting.calling
  later := rests_lasting.calling
  retries _ _ c h hi := (h.elim id id hi).aside (aside_countValidation c .retry)
  clears _ _ _ h hi := (h hi).setTabs _
  begins _ _ _ h hi := (h hi).tryBegin
  abandons _ _ _ h hi := (h hi).settle .idle fun _ => nofun
  refused _ _ _ h := h
  succeeds _ _ _ _ _ := rfl
  fails _ i _ _ h hi := (h.elim id id hi).giveUpPass i.now

theorem authenticates_validateSession :
    Triple Resting Rests Client.validateSession Authenticates := by
  refine rests_passing.validateSession (fun m i c user h => ?_) fun _ _ _ _ h => h
  show (c.resumeSession user).validator.state = _
  unfold resumeSession
  split
  · exact h
  · exact h

/-! ## Rules -/

/-- What is asked of work: it leaves a client at rest that it found at rest, but for a renewal with
a token, a check that succeeds, and what begins in order to bring a session back. -/
def restRules : Rules Unit Client Operation Reply Job where
  memo := ()
  pact _ := Resting
  outcome work m i e c :=
    match work with
    | .call .start => i.cue = none
    | .call (.login _ _) => i.cue = none
    | .call .armTimers => i.cue = none
    | .call (.refresh _) => Renewed m i c
    | .job (.supervision (.refreshTimer _)) => Renewed m i c
    | .call .validate => Checked i e c
    | .call .validateSession => Checked i e c
    | _ => Rests m i c

theorem rests_opening {α : Type} {x : Activity Client α}
    {Q : Unit → Start Client → α → Client → Prop} (h : Triple Resting Rests x Q) :
    Triple Resting Opening x Q := opening_of h fun _ _ => id

theorem unstored_opening {α : Type} {x : Activity Client α}
    {Q : Unit → Start Client → α → Client → Prop} (h : Triple Resting Unstored x Q) :
    Triple Resting Opening x Q := opening_of h fun _ _ => ⟨rfl, id⟩

theorem restRules_serve (k : Operation) :
    Triple Resting Opening (Client.serve k)
      fun m i r c => restRules.outcome (.call k) m i (.answers r) c := by
  -- An operation that begins, pauses and ends as the rules of the others ask.
  have hrests : ∀ {α : Type} {x : Activity Client α} {f : α → Reply}, Maintains Resting Rests x →
      Triple Resting Opening (do return f (← x)) fun m i _ c => Rests m i c := fun h =>
    Triple.map (rests_opening h)
  have hmodify : ∀ {f : Client → Client}, (∀ c, AtRest c → AtRest (f c)) →
      Triple Resting Opening (do modify f; return Reply.done) fun m i _ c => Rests m i c :=
    fun hf => hrests (triple_modify fun m i c h hi => hf c (h hi))
  cases k with
  | start =>
      refine Triple.bind (M := fun _ i _ _ => i.cue = none) (triple_change fun _ _ _ h => h.1)
        fun _ => triple_pure fun _ _ _ h => h
  | login t e =>
      refine Triple.bind (M := fun _ i _ _ => i.cue = none) (triple_step fun _ _ _ h => h.1)
        fun _ => triple_pure fun _ _ _ h => h
  | armTimers =>
      refine Triple.bind (M := fun _ i _ _ => i.cue = none) (triple_modify fun _ _ _ h => h.1)
        fun _ => triple_pure fun _ _ _ h => h
  | logout => exact hmodify fun c _ => atRest_logout c
  | refresh force =>
      exact Triple.map (unstored_opening (renewed_refresh force))
  | validate =>
      exact Triple.bind (rests_opening rests_passing.validate) fun _ =>
        triple_pure fun _ _ _ h => h.checked
  | validateSession =>
      exact Triple.bind (rests_opening authenticates_validateSession) fun _ =>
        triple_pure fun _ _ _ h => h.checked
  | send r => exact hrests (rests_lasting.calling.send r)
  | sendWithRetry r => exact hrests (rests_lasting.calling.sendWithRetry r)
  | stopTimers => exact hmodify fun c h => ⟨rfl, rfl, h.user, h.unchecked⟩
  | setVisibility inBackground =>
      exact hmodify fun c h => ⟨h.refreshTimer, h.expiryTimer, h.user, h.unchecked⟩
  | trackAuth e => exact hmodify fun c h => h.aside (aside_trackAuth c e)
  | trackRequest e => exact hrests (rests_lasting.trackRequest e)
  | flushAuth => exact hrests (rests_lasting.telemetry Batcher.unattributing_flushAuth)
  | flushRequests => exact hrests (rests_lasting.telemetry Batcher.unattributing_flushRequests)
  | teardown => exact hrests (triple_step fun m i c h hi => (h hi).teardown i.now)
  | onTab tab action =>
      refine (rests_opening (triple_step fun m i c h hi => ?_)).conseq (fun _ _ _ h => h)
        fun _ _ _ _ h => h
      have hrest : AtRest c := h hi
      show AtRest (c.act tab action i.now).2
      unfold Client.act
      split
      · exact hrest.setTabs _
      · exact hrest

theorem restRules_perform (j : Job) :
    Triple Resting Opening (Client.perform j) fun m i again c =>
      restRules.outcome (.job j) m i (again.elim .leaves .again) c := by
  cases j with
  | telemetry job =>
      exact rests_opening (Triple.bind
        (rests_lasting.telemetry (Batcher.unattributing_perform job))
          fun again => triple_pure fun _ _ _ h => h)
  | supervision job =>
      cases job with
      | refreshTimer n =>
          have hwatch := unstored_patient.watchRefresh (F := Renewed) (fun _ _ _ _ h => h.aside)
            (fun _ _ _ _ h => h.aside) (fun _ _ _ h => h.renewed) n
          exact unstored_opening (Triple.bind hwatch fun again =>
            triple_pure fun m i c h => h.elim (·.renewed) id)
      | expiryTimer n =>
          have hwatch := rests_enduring.watchExpiry (E := Rests) (n := n)
            fun m i c h _ hi => ((h hi).setTabs _).expire n
          exact rests_opening (Triple.bind hwatch fun again => triple_pure fun m i c h => by
            cases again <;> exact h)

theorem restRules_keptBy : restRules.KeptBy workplace :=
  keptBy_workplace (fun _ _ _ => id) restRules_serve restRules_perform

/-! ## Moments -/

/-- The moment is the first one of its work. -/
def Moment.begins (x : Moment) : Bool :=
  x.start.cue.isNone && match x.result with
    | .paused .drops => false
    | _ => true

/-- The stretch renewed the session with a token, where there are timers, or was the last one of a
check that succeeded. -/
def Moment.rouses (x : Moment) : Bool :=
  match x.work, x.result with
  | .call (.refresh _), .ended _ => x.start.stores && x.start.state.supervisor.hasWorkers
  | .job (.supervision (.refreshTimer _)), .ended _ =>
    x.start.stores && x.start.state.supervisor.hasWorkers
  | .call .validate, .ended e => confirms e
  | .call .validateSession, .ended e => confirms e
  | _, _ => false

/-- No operation that may bring a session back begins in these moments. -/
def NoneRevives (ms : List Moment) : Prop :=
  ∀ x ∈ ms, x.begins = true → ∀ k, x.work = .call k → k.revives = false

theorem noneRevives_of_begun {ms : List Moment} (h : ∀ x ∈ ms, x.begins = false) :
    NoneRevives ms := by
  intro x hx hbegins
  rw [h x hx] at hbegins
  cases hbegins

theorem Renewed.atRest_iff {m : Unit} {i : Start Client} (h : Renewed m i c) (hi : AtRest i.state) :
    AtRest c ↔ (i.stores && i.state.supervisor.hasWorkers) = false := by
  unfold Renewed at h
  split at h
  · rename_i hw
    rw [hw]
    refine ⟨fun hc => ?_, fun hf => nomatch hf⟩
    rw [hc.expiryTimer] at h
    cases h
  · rename_i hw
    exact ⟨fun _ => Bool.eq_false_iff.mpr hw, fun _ => h hi⟩

/-- What a moment leaves is at rest, if it began at rest, unless the moment rouses the client. -/
theorem rests_moment {s : Scene} {ms : List Moment} (hrun : Course (scene c) ms s) {x : Moment}
    (hx : x ∈ ms) (hrevives : x.begins = true → ∀ k, x.work = .call k → k.revives = false)
    (hi : AtRest x.start.state) : AtRest x.left ↔ x.rouses = false := by
  have hkeeps := restRules_keptBy.all hrun x hx
  obtain ⟨n, work, i, result, left, after⟩ := x
  cases result with
  | paused p =>
      -- No stretch rouses the client that is not the last one of its work.
      have hrouses : Moment.rouses ⟨n, work, i, .paused p, left, after⟩ = false := by
        unfold Moment.rouses
        split <;> first | contradiction | rfl
      exact ⟨fun _ => hrouses, fun _ => hkeeps hi⟩
  | ended e =>
      have hbegins : i.cue = none → Moment.begins ⟨n, work, i, .ended e, left, after⟩ = true :=
        fun hcue => by simp [Moment.begins, hcue]
      have hrests : Rests () i left → Moment.rouses ⟨n, work, i, .ended e, left, after⟩ = false →
          (AtRest left ↔ Moment.rouses ⟨n, work, i, .ended e, left, after⟩ = false) :=
        fun h hr => ⟨fun _ => hr, fun _ => h hi⟩
      obtain ⟨hout, -⟩ := hkeeps
      cases work with
      | call k =>
          cases k with
          | start => exact absurd (hrevives (hbegins hout) _ rfl) nofun
          | login t e' => exact absurd (hrevives (hbegins hout) _ rfl) nofun
          | armTimers => exact absurd (hrevives (hbegins hout) _ rfl) nofun
          | refresh force => exact hout.atRest_iff hi
          | validate => exact hout hi
          | validateSession => exact hout hi
          | _ => exact hrests hout rfl
      | job j =>
          match j, hout with
          | .telemetry _, hout => exact hrests hout rfl
          | .supervision (.refreshTimer _), hout => exact hout.atRest_iff hi
          | .supervision (.expiryTimer _), hout => exact hrests hout rfl

theorem AtRest.after_iff {s : Scene} {x : Moment} (hx : Step s x)
    (h : AtRest x.left ↔ x.rouses = false) : AtRest x.after.state ↔ x.rouses = false := by
  have hheeded : ∀ {c : Client}, AtRest (workplace.heeded c) ↔ AtRest c := fun {c} =>
    ⟨fun h => ⟨h.refreshTimer, h.expiryTimer, h.user, h.unchecked⟩,
      fun h => ⟨h.refreshTimer, h.expiryTimer, h.user, h.unchecked⟩⟩
  rcases hx.after_state with hafter | ⟨hfaults, j, -, hafter⟩
  · rw [hafter, hheeded]
    exact h
  · have hrouses : x.rouses = false := by
      unfold Moment.rouses
      rw [hfaults]
      split <;> first | contradiction | rfl
    rw [hafter, hheeded]
    exact ⟨fun _ => hrouses, fun hr => (h.mpr hr).abandonJob j⟩

/-- Signing out puts the client to rest. While nothing begins that may bring a session back, it
stays at rest if and only if no stretch rouses it. -/
theorem atRest_iff_rouses {c : Client} {ms ms' : List Moment} {o : Moment} {s : Scene}
    (hrun : Course (scene c) (ms ++ o :: ms') s) (ho : o.Carries .logout)
    (hnone : NoneRevives ms') :
    AtRest o.after.state ∧
      ((∀ x ∈ ms', AtRest x.after.state) ↔ ∀ x ∈ ms', x.rouses = false) := by
  obtain ⟨t, before, out, after⟩ := hrun.split
  have hout : AtRest o.after.state := by
    have hleft : AtRest o.left := by
      rw [Client.Step.left_eq out ho]
      exact atRest_logout _
    rcases out.after_state with hafter | ⟨hfaults, -⟩
    · rw [hafter]
      exact ⟨hleft.refreshTimer, hleft.expiryTimer, hleft.user, hleft.unchecked⟩
    · obtain ⟨e, he⟩ := ho.ended
      rw [he] at hfaults
      cases hfaults
  refine ⟨hout, after.forall_iff hout fun l u x hu hx hmem hrest => ?_⟩
  refine AtRest.after_iff hx (rests_moment ((before.snoc out).append (hu.snoc hx)) ?_ ?_ ?_)
  · exact List.mem_append_right _ (List.mem_append_right _ (List.mem_singleton.mpr rfl))
  · exact hnone x hmem
  · rw [hx.start_state]
    exact hrest

/-- A client signs in, and out again while the server checks its token; then the server answers. -/
def checkOverSignOut (answer : Response) : Script :=
  [(⟨1748779200000000000⟩, .ask (.login ⟨"t"⟩ (some ⟨1748782800000000000⟩))),
    (⟨1748779200000000000⟩, .ask .validateSession),
    (⟨1748779201000000000⟩, .ask .logout),
    (⟨1748779205000000000⟩, .reply 4 (Wait.answer (.ok answer) (.error .loginRequired)))]

/-- A client that has signed out stays at rest when the server refuses the token of a check. -/
theorem atRest_iff_rouses_plain : ∃ (ms ms' : List Moment) (o : Moment) (s : Scene),
    Course (scene plain) (ms ++ o :: ms') s ∧ o.Carries .logout ∧ NoneRevives ms' ∧
      AtRest o.after.state ∧
        ((∀ x ∈ ms', AtRest x.after.state) ↔ ∀ x ∈ ms', x.rouses = false) := by
  have hpasses : workplace.passes (scene plain) (checkOverSignOut ⟨401, Table.empty, ""⟩) 2
      (fun _ o ms' _ => Moment.signsOut o && decide (ms'.length = 1 ∧
        ∀ x ∈ ms', Moment.begins x = false)) = true := by
    decide +kernel
  obtain ⟨ms, o, ms', s, hrun, htest⟩ := Workplace.exists_course hpasses
  rw [Bool.and_eq_true, decide_eq_true_eq] at htest
  obtain ⟨hout, -, hbegun⟩ := htest
  have hcarries := Moment.carries_logout hout
  have hnone := noneRevives_of_begun hbegun
  exact ⟨ms, ms', o, s, hrun, hcarries, hnone, atRest_iff_rouses hrun hcarries hnone⟩

/-- A check that was in flight when the client signed out runs the timers again and names the user.
-/
theorem not_atRest_after_logout : ¬∀ (c : Client) (ms ms' : List Moment) (o : Moment) (s : Scene),
    Course (scene c) (ms ++ o :: ms') s → o.Carries .logout → NoneRevives ms' →
      (∀ f ∈ s.flights, f.work.isCall = true → o.number < f.number) → AtRest s.state := by
  intro hclaim
  have hpasses : workplace.passes (scene plain)
      (checkOverSignOut ⟨200, Table.empty, "\x7b\"id\":\"u\"\x7d"⟩) 2
      (fun _ o ms' s => Moment.signsOut o && decide ((∀ x ∈ ms', Moment.begins x = false) ∧
        (∀ f ∈ s.flights, f.work.isCall = true → o.number < f.number) ∧
          s.state.supervisor.hasTimeout = true)) = true := by
    decide +kernel
  obtain ⟨ms, o, ms', s, hrun, htest⟩ := Workplace.exists_course hpasses
  rw [Bool.and_eq_true, decide_eq_true_eq] at htest
  obtain ⟨hout, hbegun, hflights, htimer⟩ := htest
  have hrest := hclaim plain ms ms' o s hrun (Moment.carries_logout hout)
    (noneRevives_of_begun hbegun) hflights
  rw [hrest.expiryTimer] at htimer
  cases htimer

end Client

end ClientSession
