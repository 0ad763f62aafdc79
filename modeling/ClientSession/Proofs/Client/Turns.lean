import ClientSession.Proofs.Client.Thrift

/-!
# Who takes turns

Only refreshes take the turn of the supervisor and give it back. Nothing else that a client is asked
for, and none of the other work beside its callers, touches the turn; and of that only the work of
the batcher might be resumed too early.

- `Client.SparesTurn`: every stretch leaves the turn as it is.
- `Client.sparesTurn_validateSession`: passes do so, and are not resumed too early.
- `Client.sparesTurn_carryOut`: so does all work that does not refresh the session.
-/

namespace ClientSession

namespace Supervisor

variable (s : Supervisor)

@[simp] theorem turn_stop (task : Option Nat) : (s.stop task).turn = s.turn := by
  cases task <;> rfl

@[simp] theorem turn_startTask (job : Nat → WatchJob) : (s.startTask job).2.turn = s.turn := by
  unfold startTask
  split <;> rfl

@[simp] theorem turn_armTimeout : s.armTimeout.turn = s.turn := by simp [armTimeout]

@[simp] theorem turn_armRefresh : s.armRefresh.turn = s.turn := by
  unfold armRefresh
  split
  · simp
  · rfl

@[simp] theorem turn_start : s.start.turn = s.turn := by simp [start]

@[simp] theorem turn_shutdown : s.shutdown.turn = s.turn := by simp [shutdown]

end Supervisor

open Activity

/-- No stretch was resumed too early, unless that may be. -/
def Activity.Prompt {σ α : Type} (early : Prop) (x : Activity σ α) : Prop :=
  Maintains (fun _ _ p _ _ => p = .stays → early : Pact Unit σ) (fun _ _ _ => True) x

theorem Limiter.prompt_acquire {early : Prop} (endpoint : String) (user : Option String) :
    Prompt early (acquire endpoint user) := by
  have htry : ∀ limit, Prompt early
      (Activity.attempt fun now l => Limiter.tryTake l endpoint user limit now) :=
    fun limit => triple_attempt (fun _ _ _ _ => nofun) fun _ _ _ _ _ _ => trivial
  have hsleep : ∀ span, Prompt early (Activity.sleep span : Activity Limiter Unit) := by
    intro span
    refine Maintains.ite (triple_await fun _ _ _ _ => ?_) (maintains_pure ())
    exact ⟨(), nofun, fun _ _ => nofun, fun _ _ _ => trivial⟩
  refine Maintains.bind maintains_get fun l => ?_
  cases l.limit? endpoint with
  | none => exact maintains_pure _
  | some limit =>
      refine Maintains.bind (htry limit) fun wait => ?_
      cases wait with
      | none => exact maintains_pure _
      | some wait => exact Maintains.bind (hsleep _) fun _ => Maintains.map (htry limit)

namespace Client

variable {early : Prop} {α σ : Type}

/-- The turn as a stretch leaves it. -/
def sparing (early : Prop) : Pact Unit Client := fun _ i p c _ =>
  (p = .stays → early) ∧ c.supervisor.turn = i.state.supervisor.turn

/-- Every stretch leaves the turn as it is, and none was resumed too early, unless that may be. -/
def SparesTurn (early : Prop) (x : Activity Client α) : Prop :=
  Maintains (sparing early) (fun _ i c => c.supervisor.turn = i.state.supervisor.turn) x

/-! ## Steps -/

@[simp] theorem turn_setTabs (c : Client) (w : Tabs) :
    (c.setTabs w).supervisor.turn = c.supervisor.turn := by
  unfold setTabs
  dsimp only
  split
  · exact Supervisor.turn_shutdown _
  · rfl

theorem sparesTurn_modify {f : Client → Client}
    (hf : ∀ c, (f c).supervisor.turn = c.supervisor.turn) :
    SparesTurn early (modify f : Activity Client PUnit) :=
  triple_modify fun _ _ c h => (hf c).trans h

theorem sparesTurn_change {f : Instant → Client → Client}
    (hf : ∀ now c, (f now c).supervisor.turn = c.supervisor.turn) :
    SparesTurn early (Activity.change f) :=
  triple_change fun _ i c h => (hf i.now c).trans h

theorem sparesTurn_step {f : Instant → Client → α × Client}
    (hf : ∀ now c, (f now c).2.supervisor.turn = c.supervisor.turn) :
    SparesTurn early (Activity.step f) :=
  triple_step fun _ i c h => (hf i.now c).trans h

theorem sparesTurn_attempt {f : Instant → Client → ClientSession.Checked (α × Client)}
    (hf : ∀ now c r, f now c = .ok r → r.2.supervisor.turn = c.supervisor.turn) :
    SparesTurn early (Activity.attempt f) :=
  triple_attempt (fun _ _ _ h => ⟨nofun, h⟩) fun _ i c r h hr => (hf i.now c r hr).trans h

theorem sparesTurn_await (w : Wait) : SparesTurn early (Activity.await w) :=
  triple_await fun _ _ _ h => ⟨(), ⟨nofun, h⟩, fun _ _ => ⟨nofun, rfl⟩, fun _ _ _ => rfl⟩

theorem sparesTurn_sleep (span : Span) : SparesTurn early (Activity.sleep span) :=
  Maintains.ite (sparesTurn_await _) (maintains_pure ())

theorem sparesTurn_onTab (f : Tabs → Nat → Instant → α × Tabs) : SparesTurn early (onTab f) :=
  sparesTurn_step fun _ c => turn_setTabs c _

/-- Work on another part. -/
theorem sparesTurn_within {get : Client → σ} {put : Client → σ → Client}
    (hput : ∀ c s, (put c s).supervisor.turn = c.supervisor.turn) {x : Activity σ α}
    (hx : Prompt early x) : SparesTurn early (x.within get put) := by
  refine ⟨fun _ i c h => ?_⟩
  have hmeets := hx.meets () ⟨none, i.now, get c⟩ (get c) trivial
  show ((x i.now (get c)).within get put c).Meets _ _ _ _
  generalize x i.now (get c) = r at hmeets
  generalize (⟨none, i.now, get c⟩ : Start σ) = j at hmeets
  induction r generalizing i j c with
  | done s a => exact (hput c s).trans h
  | fault s e => exact ⟨nofun, (hput c s).trans h⟩
  | stay s => exact ⟨fun _ => hmeets rfl, (hput c s).trans h⟩
  | wait s w drop resume ih =>
      obtain ⟨_, -, -, hresume⟩ := hmeets
      refine ⟨(), ⟨nofun, (hput c s).trans h⟩, fun now d => ⟨nofun, hput d _⟩, fun a now d => ?_⟩
      exact ih a now (get d) ⟨some ⟨w, a⟩, now, d⟩ d rfl ⟨some ⟨w, a⟩, now, get d⟩
        (hresume a now (get d))

theorem sparesTurn_batcher (x : Activity Batcher α) :
    SparesTurn True (x.within (·.batcher) setBatcher) := by
  refine sparesTurn_within (fun c b => ?_) ⟨fun _ _ _ _ => ?_⟩
  · rfl
  · exact Run.meets_trivial (fun _ _ _ _ _ => trivial) fun _ _ _ _ => trivial

theorem sparesTurn_acquire (endpoint : String) (user : Option String) :
    SparesTurn early (Client.acquire endpoint user) := by
  refine sparesTurn_within (fun c l => ?_) (Limiter.prompt_acquire endpoint user)
  rfl

theorem sparesTurn_remainingWait (endpoint : String) (user : Option String) :
    SparesTurn early (Client.remainingWait endpoint user) := by
  refine sparesTurn_attempt fun now c r hr => ?_
  obtain ⟨d, -, rfl⟩ := ok_of_bind hr
  rfl

theorem sparesTurn_trackRequest (e : Event) : SparesTurn early (Client.trackRequest e) := by
  refine sparesTurn_attempt fun now c r hr => ?_
  obtain ⟨d, -, rfl⟩ := ok_of_bind hr
  rfl

/-! ## Calls -/

theorem sparesTurn_reject (r : Request) (path : String) (failure : LocalFailure) :
    SparesTurn early (Client.reject r path failure) := by
  refine Maintains.bind maintains_now fun now => ?_
  refine Maintains.bind (sparesTurn_modify fun c => rfl) fun _ => ?_
  exact Maintains.bind (sparesTurn_trackRequest _) fun _ => maintains_pure _

theorem sparesTurn_reportFailure (r : Request) (path : String) (status : Option Nat)
    (elapsed : Span) (e : ApiError) :
    SparesTurn early (Client.reportFailure r path status elapsed e) :=
  Maintains.bind maintains_now fun _ => Maintains.ite (maintains_pure _) (sparesTurn_trackRequest _)

theorem sparesTurn_heedStatus (r : Request) (path : String) (response : Response)
    (elapsed : Span) : SparesTurn early (Client.heedStatus r path response elapsed) := by
  refine Maintains.bind maintains_now fun now => ?_
  refine Maintains.ite (Maintains.ite ?_ (maintains_pure _))
    (Maintains.ite ?_ (Maintains.ite ?_ (maintains_pure _)))
  · refine Maintains.bind (sparesTurn_modify fun c => turn_setTabs c _) fun _ => ?_
    exact Maintains.bind (sparesTurn_modify fun c => rfl) fun _ => sparesTurn_modify fun c => rfl
  · exact sparesTurn_modify fun c => rfl
  · exact sparesTurn_trackRequest _

theorem sparesTurn_settleCall (r : Request) (path : String) (outcome : TransportOutcome) :
    SparesTurn early (settleCall r path outcome) := by
  refine Maintains.bind maintains_now fun now =>
    Maintains.bind (sparesTurn_attempt fun now' c p hr => ?_) fun elapsed => ?_
  · obtain ⟨span, -, rfl⟩ := ok_of_bind hr
    rfl
  cases outcome with
  | error failure =>
      exact Maintains.bind (sparesTurn_reportFailure _ _ _ _ _) fun _ => maintains_pure _
  | ok response =>
      refine Maintains.bind (sparesTurn_modify fun c => rfl) fun _ => Maintains.ite ?_ ?_
      · refine Maintains.ite ?_ (maintains_pure _)
        exact Maintains.bind (sparesTurn_trackRequest _) fun _ => maintains_pure _
      · refine Maintains.bind (sparesTurn_heedStatus _ _ _ _) fun _ => ?_
        exact Maintains.bind (sparesTurn_reportFailure _ _ _ _ _) fun _ => maintains_pure _

theorem sparesTurn_exchange (r : Request) (path : String) :
    SparesTurn early (Client.exchange r path) := by
  rw [exchange_eq]
  exact Maintains.bind (sparesTurn_await (.call r)) fun outcome =>
    sparesTurn_settleCall r path outcome

theorem sparesTurn_authorize (r : Request) (path : String) (started : Instant) :
    SparesTurn early (Client.authorize r path started) := by
  refine Maintains.ite (Maintains.bind (sparesTurn_onTab _) fun token => ?_)
    (sparesTurn_exchange r path)
  cases token with
  | none => exact Maintains.bind (sparesTurn_reject _ _ _) fun _ => maintains_pure _
  | some token =>
      exact Maintains.bind (sparesTurn_modify fun c => rfl) fun _ => sparesTurn_exchange _ _

theorem sparesTurn_dispatch (request : Request) : SparesTurn early (Client.dispatch request) := by
  refine Maintains.bind maintains_now fun started => ?_
  refine Maintains.bind (sparesTurn_step fun now c => rfl) fun r => ?_
  refine Maintains.ite ?_ (sparesTurn_authorize _ _ _)
  refine Maintains.bind (sparesTurn_acquire _ _) fun granted => ?_
  refine Maintains.ite (sparesTurn_authorize _ _ _) ?_
  refine Maintains.bind (sparesTurn_remainingWait _ _) fun wait => ?_
  exact Maintains.bind (sparesTurn_reject _ _ _) fun _ => maintains_pure _

theorem turn_ite_announce (c : Client) (n : Notice) (now : Instant) :
    (if c.announces then c.announce n now else c).supervisor.turn = c.supervisor.turn := by
  split <;> rfl

theorem sparesTurn_send (request : Request) : SparesTurn early (Client.send request) := by
  refine Maintains.bind (sparesTurn_modify fun c => rfl) fun _ => ?_
  refine Maintains.bind (sparesTurn_dispatch request) fun outcome => ?_
  cases outcome with
  | ok response => exact Maintains.bind (sparesTurn_modify fun c => rfl) fun _ => maintains_pure _
  | error e =>
      refine Maintains.bind (sparesTurn_modify fun c => rfl) fun _ => ?_
      refine Maintains.bind (sparesTurn_change fun now c => ?_) fun _ => maintains_pure _
      exact turn_ite_announce _ _ _

theorem sparesTurn_backOff (policy : RetryPolicy) (done : Nat) :
    SparesTurn early (Client.backOff policy done) := by
  refine Maintains.bind (sparesTurn_step fun now c => ?_) fun jitter => ?_
  · split <;> rfl
  refine Maintains.bind (sparesTurn_attempt fun now c r hr => ?_) fun span => sparesTurn_sleep span
  obtain ⟨d, -, rfl⟩ := ok_of_bind hr
  rfl

theorem sparesTurn_sendRetrying (policy : RetryPolicy) (request : Request) (left done : Nat) :
    SparesTurn early (Client.sendRetrying policy request left done) := by
  induction left generalizing done with
  | zero => exact sparesTurn_send request
  | succ left ih =>
      refine Maintains.bind (sparesTurn_send request) fun outcome => ?_
      cases outcome with
      | ok response => exact maintains_pure _
      | error e =>
          refine Maintains.ite ?_ (maintains_pure _)
          refine Maintains.bind (sparesTurn_modify fun c => rfl) fun _ => ?_
          exact Maintains.bind (sparesTurn_backOff policy done) fun _ => ih (done + 1)

/-! ## Passes -/

theorem sparesTurn_checkToken : SparesTurn early Client.checkToken := by
  refine Maintains.bind (sparesTurn_onTab _) fun user => ?_
  refine Maintains.bind (sparesTurn_acquire _ _) fun granted => Maintains.ite ?_ ?_
  · refine Maintains.bind (sparesTurn_send _) fun outcome => ?_
    cases outcome with
    | error e => exact maintains_pure _
    | ok response =>
        dsimp only
        split <;> exact maintains_pure _
  · refine Maintains.bind (sparesTurn_remainingWait _ _) fun wait => ?_
    exact Maintains.bind maintains_now fun now => maintains_pure _

theorem sparesTurn_fetchToken (supply : TokenSupply) :
    SparesTurn early (Client.fetchToken supply) := by
  cases supply with
  | provider => exact sparesTurn_await .token
  | nobody => exact maintains_pure _
  | interactive => exact maintains_pure _

theorem sparesTurn_renewCredential : SparesTurn early Client.renewCredential := by
  refine Maintains.bind (sparesTurn_modify fun c => turn_setTabs c _) fun _ => ?_
  refine Maintains.bind maintains_get fun c => ?_
  cases c.validator.supply with
  | nobody => exact maintains_pure _
  | interactive | provider =>
      refine Maintains.bind (sparesTurn_fetchToken _) fun r => ?_
      cases r with
      | error e => exact maintains_pure _
      | ok issued => exact sparesTurn_modify fun c => turn_setTabs c _

theorem sparesTurn_attemptChecks (policy : RetryPolicy) (left done : Nat) :
    SparesTurn early (Client.attemptChecks policy left done) := by
  have hfirst : ∀ (n : Nat) {β : Type} {x : Activity Client β}, SparesTurn early x →
      SparesTurn early (if 0 < n then do
        let _ ← Client.renewCredential
        x
      else x) := fun _ _ _ hx =>
    Maintains.ite (Maintains.bind sparesTurn_renewCredential fun _ => hx) hx
  have hreport : ∀ f : Instant → Client → Event,
      SparesTurn early (Activity.change fun now c => c.trackAuth (f now c)) :=
    fun f => sparesTurn_change fun now c => rfl
  -- By induction on the attempts left, as the attempts recur.
  induction left generalizing done with
  | zero =>
      rw [Client.attemptChecks]
      refine hfirst _ (Maintains.bind sparesTurn_checkToken fun r => ?_)
      cases r with
      | ok user => exact Maintains.bind (hreport _) fun _ => maintains_pure _
      | error e => exact Maintains.bind (hreport _) fun _ => maintains_pure _
  | succ left ih =>
      rw [Client.attemptChecks]
      refine hfirst _ (Maintains.bind sparesTurn_checkToken fun r => ?_)
      cases r with
      | ok user => exact Maintains.bind (hreport _) fun _ => maintains_pure _
      | error e =>
          refine Maintains.bind (sparesTurn_modify fun c => rfl) fun _ => ?_
          exact Maintains.bind (sparesTurn_backOff policy done) fun _ => ih (done + 1)

theorem sparesTurn_runPass : SparesTurn early Client.runPass := by
  refine Maintains.bind (sparesTurn_modify fun c => rfl) fun _ => Maintains.bind maintains_get
    fun c => Maintains.bind (sparesTurn_attemptChecks _ _ _) fun r => ?_
  cases r with
  | ok user =>
      refine Maintains.bind (sparesTurn_modify fun c => rfl) fun _ => ?_
      exact Maintains.bind (sparesTurn_modify fun c => rfl) fun _ => maintains_pure _
  | error e =>
      refine Maintains.bind (sparesTurn_modify fun c => rfl) fun _ => ?_
      refine Maintains.bind (sparesTurn_modify fun c => turn_setTabs c _) fun _ => ?_
      refine Maintains.bind (sparesTurn_modify fun c => rfl) fun _ => ?_
      refine Maintains.bind (sparesTurn_change fun now c => turn_ite_announce c _ now) fun _ => ?_
      exact maintains_pure _

theorem sparesTurn_pass : SparesTurn early Client.pass :=
  Triple.guarded (fun _ _ _ hd => ⟨hd.1, hd.2⟩) sparesTurn_runPass

theorem sparesTurn_validate : SparesTurn early Client.validate :=
  Maintains.bind (sparesTurn_step fun _ _ => rfl) fun _ =>
    Maintains.ite sparesTurn_pass (maintains_pure _)

theorem sparesTurn_validateSession : SparesTurn early Client.validateSession := by
  refine Maintains.bind sparesTurn_validate fun r => ?_
  cases r with
  | error e => exact maintains_pure _
  | ok user =>
      refine Maintains.bind (sparesTurn_modify fun c => ?_) fun _ => ?_
      · split
        · rfl
        · exact Supervisor.turn_start _
      · exact Maintains.bind (sparesTurn_modify fun c => rfl) fun _ => maintains_pure _

/-! ## All work -/

theorem turn_clientStart (c : Client) (now : Instant) :
    (c.start now).supervisor.turn = c.supervisor.turn := by
  unfold Client.start
  dsimp only
  split
  · exact (Supervisor.turn_start _).trans (turn_setTabs _ _)
  · exact turn_setTabs _ _

theorem turn_login (c : Client) (t : BearerToken) (e : Option Instant) (now : Instant) :
    (c.login t e now).2.supervisor.turn = c.supervisor.turn := by
  unfold Client.login
  have hinstall := turn_setTabs c (c.tabs.install c.own t e).2
  dsimp only
  split
  · generalize c.setTabs (c.tabs.install c.own t e).2 = d at hinstall
    have hread := turn_setTabs d (d.tabs.userId d.own now).2
    generalize d.setTabs (d.tabs.userId d.own now).2 = d' at hread
    exact (Supervisor.turn_start _).trans (hread.trans hinstall)
  · exact hinstall

theorem turn_logout (c : Client) : c.logout.supervisor.turn = c.supervisor.turn :=
  (Supervisor.turn_shutdown _).trans (turn_setTabs c _)

theorem turn_act (c : Client) (tab : Nat) (action : TabAction) (now : Instant) :
    (c.act tab action now).2.supervisor.turn = c.supervisor.turn := by
  unfold Client.act
  split
  · exact turn_setTabs c _
  · rfl

/-- The work refreshes the session: a caller asks for that, or the timer does. -/
def Refreshes : Work Operation Job → Bool
  | .call (.refresh _) => true
  | .job (.supervision (.refreshTimer _)) => true
  | _ => false

theorem sparesTurn_serve {k : Operation} (hk : Refreshes (.call k) = false) :
    SparesTurn True (Client.serve k) := by
  have hdone : ∀ {x : Activity Client PUnit}, SparesTurn True x →
      SparesTurn True (do x; return Reply.done) :=
    fun hx => Maintains.bind hx fun _ => maintains_pure _
  cases k with
  | start => exact hdone (sparesTurn_change fun now c => turn_clientStart c now)
  | login t e => exact Maintains.map (sparesTurn_step fun now c => turn_login c t e now)
  | logout => exact hdone (sparesTurn_modify turn_logout)
  | refresh force => cases hk
  | validate => exact Maintains.map sparesTurn_validate
  | validateSession => exact Maintains.map sparesTurn_validateSession
  | send r => exact Maintains.map (sparesTurn_send r)
  | sendWithRetry r =>
      refine Maintains.map (Maintains.bind maintains_get fun c => ?_)
      exact sparesTurn_sendRetrying c.retry r c.retry.maxRetries 0
  | armTimers => exact hdone (sparesTurn_modify fun c => Supervisor.turn_start _)
  | stopTimers => exact hdone (sparesTurn_modify fun c => Supervisor.turn_shutdown _)
  | setVisibility inBackground => exact hdone (sparesTurn_modify fun c => rfl)
  | trackAuth e => exact hdone (sparesTurn_modify fun c => rfl)
  | trackRequest e => exact hdone (sparesTurn_trackRequest e)
  | flushAuth => exact hdone (sparesTurn_batcher _)
  | flushRequests => exact hdone (sparesTurn_batcher _)
  | teardown =>
      exact Maintains.map (sparesTurn_step fun now c => Supervisor.turn_shutdown c.supervisor)
  | onTab tab action => exact sparesTurn_step fun now c => turn_act c tab action now

theorem sparesTurn_expiryTimer (task : Nat) :
    SparesTurn True (Client.watch (.expiryTimer task)) := by
  refine Maintains.bind maintains_get fun c => Maintains.bind (sparesTurn_onTab _) fun span => ?_
  refine Maintains.bind (sparesTurn_sleep _) fun _ => Maintains.bind maintains_now fun now => ?_
  refine Maintains.bind (sparesTurn_onTab _) fun e => Maintains.ite (maintains_pure _) ?_
  refine Maintains.bind (sparesTurn_modify fun c => turn_setTabs c _) fun _ => ?_
  refine Maintains.bind (sparesTurn_modify fun c => ?_) fun _ => maintains_pure _
  show (if _ then _ else c.supervisor).turn = _
  split <;> rfl

/-- All work leaves the turn as it is but that which refreshes the session. -/
theorem sparesTurn_carryOut {work : Work Operation Job} (h : Refreshes work = false) :
    SparesTurn True (workplace.carryOut work) := by
  cases work with
  | call k => exact Maintains.map (sparesTurn_serve h)
  | job j =>
      have hperform : SparesTurn True (Client.perform j) := by
        cases j with
        | telemetry job => exact Maintains.map (sparesTurn_batcher _)
        | supervision job =>
            cases job with
            | refreshTimer task => cases h
            | expiryTimer task => exact Maintains.map (sparesTurn_expiryTimer task)
      refine Maintains.bind hperform fun next => ?_
      cases next with
      | some j' => exact maintains_pure _
      | none => exact maintains_pure _

end Client

end ClientSession
