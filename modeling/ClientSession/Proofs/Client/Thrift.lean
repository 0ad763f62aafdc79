import ClientSession.Proofs.Client.Operations
import ClientSession.Proofs.Limit.Uses

/-!
# What a client does to its limiter

A client never changes a limit. Of the buckets, a call of the sign-in family uses the one of its
route and the check of a token the one of the user; signing out drops them all. Nothing else that a
client is asked for, and none of the work beside its callers, touches the limiter. Nor does a client
change its device or its token against forgery, and it counts its requests on and on.

- `Limiter.Spared`: no limit is changed, nor a bucket that is to be spared.
- `Client.Unaltered`: so it is, and the client presents itself as before.
- `Operation.Spares`: which operations spare a bucket.
- `Client.thrifty_carryOut`: what each stretch of all work does to the limiter.
- `Client.spared_of_mem`, `Client.limits_of_course`: so it is in all courses.
-/

namespace ClientSession

theorem ok_of_bind {α β : Type} {x : Checked α} {g : α → β} {b : β}
    (h : (do let a ← x; return g a) = Except.ok b) : ∃ a, x = .ok a ∧ g a = b := by
  cases x with
  | error f => cases h
  | ok a => exact ⟨a, rfl, Except.ok.inj h⟩

theorem error_of_bind {α β : Type} {x : Checked α} {g : α → β} {f : Fault}
    (h : (do let a ← x; return g a) = Except.error f) : x = .error f := by
  cases x with
  | error f' => exact congrArg _ (Except.error.inj h)
  | ok a => cases h

/-- No limit is changed, and a bucket is not if it is to be spared. -/
structure Limiter.Spared (name : String) (spared : Prop) (l l' : Limiter) : Prop where
  limits : l'.limits = l.limits
  bucket : spared → l'.buckets.find? name = l.buckets.find? name

namespace Limiter.Spared

variable {name endpoint : String} {user : Option String} {spared : Prop} {l l' l'' : Limiter}

protected theorem refl (l : Limiter) : Spared name spared l l := ⟨rfl, fun _ => rfl⟩

theorem trans (h : Spared name spared l l') (h' : Spared name spared l' l'') :
    Spared name spared l l'' :=
  ⟨h'.limits.trans h.limits, fun hs => (h'.bucket hs).trans (h.bucket hs)⟩

theorem uses {limit : EndpointLimit} {now : Instant} {asks granted : Bool}
    (h : Spared name spared l l') (hname : spared → bucketName endpoint user ≠ name)
    (huses : l'.Uses (bucketName endpoint user) limit now asks granted l'') :
    Spared name spared l l'' :=
  h.trans ⟨huses.limits, fun hs => huses.other name (hname hs).symm⟩

theorem remainingWait {now : Instant} {r : Span × Limiter} (h : Spared name spared l l')
    (hname : spared → bucketName endpoint user ≠ name)
    (hr : l'.remainingWait endpoint user now = .ok r) : Spared name spared l r.2 := by
  obtain ⟨d, hd, rfl⟩ := ok_of_bind hr
  rcases evaluate_uses hd with ⟨-, hsame⟩ | ⟨limit, -, huses⟩
  · exact hsame ▸ h
  · exact h.uses hname huses

end Limiter.Spared

/-- The operation spares the bucket of a name. -/
def Operation.Spares (name : String) : Operation → Prop
  | .send r | .sendWithRetry r =>
    Route.isAuthFamily (Route.normalize r.path) = true → Route.normalize r.path ≠ name
  | .validate | .validateSession => ∀ user, Limiter.bucketName Route.validate user ≠ name
  | .logout => False
  | _ => True

open Activity

theorem Limiter.moves_acquire {name endpoint : String} {user : Option String} {spared : Prop}
    (hname : spared → bucketName endpoint user ≠ name) :
    Moves (fun w => ∃ span, w = .sleep span) (Spared name spared) (acquire endpoint user) := by
  have htry : ∀ limit, Moves (fun w => ∃ span, w = .sleep span) (Spared name spared)
      (Activity.attempt fun now l => l.tryTake endpoint user limit now) :=
    fun limit => moves_attempt fun _ _ _ _ h hr => h.uses hname (tryTake_uses hr)
  refine Maintains.bind maintains_get fun l => ?_
  cases l.limit? endpoint with
  | none => exact maintains_pure _
  | some limit =>
      refine Maintains.bind (htry limit) fun wait => ?_
      cases wait with
      | none => exact maintains_pure _
      | some wait =>
          refine Maintains.bind (moves_sleep Spared.refl ⟨_, rfl⟩) fun _ => ?_
          exact Maintains.map (htry limit)

namespace Client

variable {may : Wait → Prop} {name : String} {spared : Prop} {α σ : Type}

/-- No limit is changed, nor a bucket that is to be spared, and the client presents itself as
before. -/
structure Unaltered (name : String) (spared : Prop) (c c' : Client) : Prop where
  limiter : Limiter.Spared name spared c.limiter c'.limiter
  profile : c'.profile = c.profile
  csrf : c'.csrf = c.csrf
  serial : c.serial ≤ c'.serial

/-- What most of the work of a client leaves as it is. -/
def kept (c : Client) : Limiter × DeviceProfile × Option String × Nat :=
  (c.limiter, c.profile, c.csrf, c.serial)

theorem Unaltered.same {c c' c'' : Client} (h : Unaltered name spared c c')
    (hkept : c''.kept = c'.kept) : Unaltered name spared c c'' := by
  obtain ⟨hlimiter, hprofile, hcsrf, hserial⟩ : c''.limiter = c'.limiter ∧
      c''.profile = c'.profile ∧ c''.csrf = c'.csrf ∧ c''.serial = c'.serial := by
    simpa [kept] using hkept
  refine ⟨?_, hprofile.trans h.profile, hcsrf.trans h.csrf, hserial ▸ h.serial⟩
  rw [hlimiter]
  exact h.limiter

protected theorem Unaltered.refl (c : Client) : Unaltered name spared c c :=
  ⟨.refl _, rfl, rfl, Nat.le_refl _⟩

/-- The limiter is spared once more. -/
theorem Unaltered.limited {c c' : Client} {l : Limiter} (h : Unaltered name spared c c')
    (hl : Limiter.Spared name spared c'.limiter l) :
    Unaltered name spared c { c' with limiter := l } :=
  ⟨h.limiter.trans hl, h.profile, h.csrf, h.serial⟩

/-- Each stretch of the activity leaves the limits alone, and a bucket if it is to be spared, and
waits only for what it may. -/
def ThriftyIn (may : Wait → Prop) (name : String) (spared : Prop) (x : Activity Client α) : Prop :=
  Moves may (Unaltered name spared) x

/-- The same, whatever it waits for. -/
abbrev Thrifty (name : String) (spared : Prop) (x : Activity Client α) : Prop :=
  ThriftyIn (fun _ => True) name spared x

@[simp] theorem limiter_setTabs (c : Client) (w : Tabs) : (c.setTabs w).limiter = c.limiter := by
  unfold setTabs
  dsimp only
  split <;> rfl

theorem kept_setTabs (c : Client) (w : Tabs) : (c.setTabs w).kept = c.kept := by
  unfold setTabs
  dsimp only
  split <;> rfl

/-! ## Steps -/

theorem thrifty_modify {f : Client → Client} (hf : ∀ c, (f c).kept = c.kept) :
    ThriftyIn may name spared (modify f : Activity Client PUnit) :=
  moves_modify fun _ c h => h.same (hf c)

theorem thrifty_change {f : Instant → Client → Client}
    (hf : ∀ now c, (f now c).kept = c.kept) : ThriftyIn may name spared (Activity.change f) :=
  triple_change fun _ i c h => h.same (hf i.now c)

theorem thrifty_step {f : Instant → Client → α × Client}
    (hf : ∀ now c, (f now c).2.kept = c.kept) : ThriftyIn may name spared (Activity.step f) :=
  moves_step fun now _ c h => h.same (hf now c)

theorem thrifty_await (w : Wait) : Thrifty name spared (Activity.await w) :=
  moves_await (fun _ => .refl _) trivial

theorem thrifty_sleep (span : Span) : Thrifty name spared (Activity.sleep span) :=
  moves_sleep (fun _ => .refl _) trivial

theorem thrifty_onTab (f : Tabs → Nat → Instant → α × Tabs) : ThriftyIn may name spared (onTab f) :=
  thrifty_step fun _ c => kept_setTabs c _

/-- Work on any other part. -/
theorem thrifty_within {get : Client → σ} {put : Client → σ → Client}
    (hput : ∀ c s, (put c s).kept = c.kept) (x : Activity σ α) :
    Thrifty name spared (x.within get put) := by
  have hcarries : Carries (Moving (fun _ => True) (Unaltered name spared))
      (fun _ i c => Unaltered name spared i.state c) get put (fun _ => True) fun _ _ => True :=
    ⟨fun _ _ c s h _ => h.same (hput c s), fun _ _ _ h => ⟨nofun, h⟩, fun _ _ _ h => ⟨nofun, h⟩,
      fun _ _ _ _ h _ => ⟨(), ⟨fun _ _ => trivial, h⟩,
        fun _ c s _ => ⟨nofun, (Unaltered.refl c).same (hput c s)⟩, fun _ _ _ => .refl _⟩⟩
  have hmoves : Moves (fun _ => True) (fun _ _ => True) x :=
    ⟨fun _ _ _ _ => Run.meets_trivial (fun _ _ _ _ => ⟨fun _ _ => trivial, trivial⟩)
      fun _ _ _ _ => trivial⟩
  exact hcarries.within (fun _ => trivial) hmoves

theorem thrifty_batcher (x : Activity Batcher α) :
    Thrifty name spared (x.within (·.batcher) setBatcher) := by
  refine thrifty_within (fun c b => ?_) x
  rfl

theorem thrifty_acquire {endpoint : String} {user : Option String}
    (hname : spared → Limiter.bucketName endpoint user ≠ name) :
    Thrifty name spared (Client.acquire endpoint user) := by
  have hcarries : Carries (Moving (fun _ => True) (Unaltered name spared))
      (fun _ i c => Unaltered name spared i.state c) (·.limiter)
      (fun c l => { c with limiter := l }) (fun w => ∃ span, w = .sleep span)
      (Limiter.Spared name spared) :=
    ⟨fun _ _ _ _ h hs => h.limited hs, fun _ _ _ h => ⟨nofun, h⟩, fun _ _ _ h => ⟨nofun, h⟩,
      fun _ _ _ _ h _ => ⟨(), ⟨fun _ _ => trivial, h⟩,
        fun _ c _ hs => ⟨nofun, (Unaltered.refl c).limited hs⟩, fun _ _ _ => .refl _⟩⟩
  exact hcarries.within Limiter.Spared.refl (Limiter.moves_acquire hname)

theorem thrifty_remainingWait {endpoint : String} {user : Option String}
    (hname : spared → Limiter.bucketName endpoint user ≠ name) :
    ThriftyIn may name spared (Client.remainingWait endpoint user) := by
  refine moves_attempt fun now c₀ c r h hr => ?_
  obtain ⟨d, hd, rfl⟩ := ok_of_bind hr
  exact h.limited ((Limiter.Spared.refl _).remainingWait hname hd)

theorem thrifty_trackRequest (e : Event) : ThriftyIn may name spared (Client.trackRequest e) := by
  refine moves_attempt fun now c₀ c r h hr => ?_
  obtain ⟨d, -, rfl⟩ := ok_of_bind hr
  exact h.same rfl

/-! ## Calls -/

theorem thrifty_reject (r : Request) (path : String) (failure : LocalFailure) :
    ThriftyIn may name spared (Client.reject r path failure) := by
  refine Maintains.bind maintains_now fun now => ?_
  refine Maintains.bind (thrifty_modify fun c => rfl) fun _ => ?_
  exact Maintains.bind (thrifty_trackRequest _) fun _ => maintains_pure _

theorem thrifty_reportFailure (r : Request) (path : String) (status : Option Nat) (elapsed : Span)
    (e : ApiError) : ThriftyIn may name spared (Client.reportFailure r path status elapsed e) :=
  Maintains.bind maintains_now fun _ => Maintains.ite (maintains_pure _) (thrifty_trackRequest _)

theorem thrifty_heedStatus (r : Request) (path : String) (response : Response) (elapsed : Span) :
    ThriftyIn may name spared (Client.heedStatus r path response elapsed) := by
  refine Maintains.bind maintains_now fun now => ?_
  refine Maintains.ite (Maintains.ite ?_ (maintains_pure _))
    (Maintains.ite ?_ (Maintains.ite ?_ (maintains_pure _)))
  · refine Maintains.bind (thrifty_modify fun c => kept_setTabs c _) fun _ => ?_
    exact Maintains.bind (thrifty_modify fun c => rfl) fun _ => thrifty_modify fun c => rfl
  · exact thrifty_modify fun c => rfl
  · exact thrifty_trackRequest _

/-- What is made of the outcome of a call. -/
def settleCall (r : Request) (path : String) (outcome : TransportOutcome) :
    Activity Client CallResult := do
  let now ← Activity.now
  let elapsed ← Activity.attempt fun now c => do
    return ((← r.elapsed now).getD Span.zero, c)
  let slow : Bool := decide (slowThreshold < elapsed)
  match outcome with
  | .error failure =>
    let e := classify (.transport failure) now
    reportFailure r path none elapsed e
    return .error e
  | .ok response =>
    modify fun c => { c with latencies := c.latencies ++ [⟨elapsed, slow⟩] }
    if response.isSuccess then
      if slow then
        trackRequest ((Event.request r.method.name path (some response.status) elapsed
          now).withTag "slow" "true")
      return .ok response
    else
      heedStatus r path response elapsed
      let e := classify (.response response) now
      reportFailure r path (some response.status) elapsed e
      return .error e

theorem exchange_eq (r : Request) (path : String) :
    Client.exchange r path = Activity.await (.call r) >>= settleCall r path := by
  refine bind_congr fun outcome => ?_
  cases outcome <;> rfl

/-- It does not have to wait. -/
theorem thrifty_settleCall (r : Request) (path : String) (outcome : TransportOutcome) :
    ThriftyIn may name spared (settleCall r path outcome) := by
  refine Maintains.bind maintains_now fun now =>
    Maintains.bind (moves_attempt fun now' c₀ c p h hr => ?_) fun elapsed => ?_
  · obtain ⟨span, -, rfl⟩ := ok_of_bind hr
    exact h
  cases outcome with
  | error failure =>
      exact Maintains.bind (thrifty_reportFailure _ _ _ _ _) fun _ => maintains_pure _
  | ok response =>
      refine Maintains.bind (thrifty_modify fun c => rfl) fun _ => Maintains.ite ?_ ?_
      · refine Maintains.ite ?_ (maintains_pure _)
        exact Maintains.bind (thrifty_trackRequest _) fun _ => maintains_pure _
      · refine Maintains.bind (thrifty_heedStatus _ _ _ _) fun _ => ?_
        exact Maintains.bind (thrifty_reportFailure _ _ _ _ _) fun _ => maintains_pure _

theorem thrifty_exchange (r : Request) (path : String) :
    Thrifty name spared (Client.exchange r path) := by
  rw [exchange_eq]
  exact Maintains.bind (thrifty_await (.call r)) fun outcome => thrifty_settleCall r path outcome

theorem thrifty_authorize (r : Request) (path : String) (started : Instant) :
    Thrifty name spared (Client.authorize r path started) := by
  refine Maintains.ite (Maintains.bind (thrifty_onTab _) fun token => ?_) (thrifty_exchange r path)
  cases token with
  | none => exact Maintains.bind (thrifty_reject _ _ _) fun _ => maintains_pure _
  | some token => exact Maintains.bind (thrifty_modify fun c => rfl) fun _ => thrifty_exchange _ _

theorem thrifty_dispatch {request : Request} (h : spared →
      Route.isAuthFamily (Route.normalize request.path) = true →
        Route.normalize request.path ≠ name) :
    Thrifty name spared (Client.dispatch request) := by
  refine Maintains.bind maintains_now fun started => ?_
  refine Maintains.bind (moves_step fun now c₀ c h => ?_) fun r => ?_
  · exact ⟨h.limiter, h.profile, h.csrf, Nat.le_succ_of_le h.serial⟩
  refine Triple.ite (fun hfamily => ?_) fun _ => thrifty_authorize _ _ _
  have hname : spared → Limiter.bucketName (Route.normalize request.path) none ≠ name :=
    fun hs => h hs hfamily
  refine Maintains.bind (thrifty_acquire hname) fun granted => ?_
  refine Maintains.ite (thrifty_authorize _ _ _) ?_
  refine Maintains.bind (thrifty_remainingWait hname) fun wait => ?_
  exact Maintains.bind (thrifty_reject _ _ _) fun _ => maintains_pure _

theorem kept_ite_announce (c : Client) (n : Notice) (now : Instant) :
    (if c.announces then c.announce n now else c).kept = c.kept := by
  split <;> rfl

theorem thrifty_send {request : Request} (h : spared → (Operation.send request).Spares name) :
    Thrifty name spared (Client.send request) := by
  refine Maintains.bind (thrifty_modify fun c => rfl) fun _ => ?_
  refine Maintains.bind (thrifty_dispatch h) fun outcome => ?_
  cases outcome with
  | ok response => exact Maintains.bind (thrifty_modify fun c => rfl) fun _ => maintains_pure _
  | error e =>
      refine Maintains.bind (thrifty_modify fun c => rfl) fun _ => ?_
      refine Maintains.bind (thrifty_change fun now c => ?_) fun _ => maintains_pure _
      exact kept_ite_announce _ _ _

theorem thrifty_backOff (policy : RetryPolicy) (done : Nat) :
    Thrifty name spared (Client.backOff policy done) := by
  refine Maintains.bind (thrifty_step fun now c => ?_) fun jitter => ?_
  · split <;> rfl
  refine Maintains.bind (moves_attempt fun now c₀ c r h hr => ?_) fun span => thrifty_sleep span
  obtain ⟨d, -, rfl⟩ := ok_of_bind hr
  exact h

theorem thrifty_sendRetrying {request : Request}
    (h : spared → (Operation.send request).Spares name) (policy : RetryPolicy) (left done : Nat) :
    Thrifty name spared (Client.sendRetrying policy request left done) := by
  induction left generalizing done with
  | zero => exact thrifty_send h
  | succ left ih =>
      refine Maintains.bind (thrifty_send h) fun outcome => ?_
      cases outcome with
      | ok response => exact maintains_pure _
      | error e =>
          refine Maintains.ite ?_ (maintains_pure _)
          refine Maintains.bind (thrifty_modify fun c => rfl) fun _ => ?_
          exact Maintains.bind (thrifty_backOff policy done) fun _ => ih (done + 1)

/-! ## Sessions -/

theorem thrifty_checkToken
    (h : spared → ∀ user, Limiter.bucketName Route.validate user ≠ name) :
    Thrifty name spared Client.checkToken := by
  refine Maintains.bind (thrifty_onTab _) fun user => ?_
  have hname : spared → Limiter.bucketName Route.validate user ≠ name := fun hs => h hs user
  refine Maintains.bind (thrifty_acquire hname) fun granted => Maintains.ite ?_ ?_
  · -- The check is no call of the family that is limited by route.
    have hcall : Route.isAuthFamily (Route.normalize Route.validate) = false := by decide +kernel
    refine Maintains.bind (thrifty_send fun _ hfamily => ?_) fun outcome => ?_
    · exact absurd hfamily (Bool.eq_false_iff.mp hcall)
    · cases outcome with
      | error e => exact maintains_pure _
      | ok response =>
          dsimp only
          split <;> exact maintains_pure _
  · refine Maintains.bind (thrifty_remainingWait hname) fun wait => ?_
    exact Maintains.bind maintains_now fun now => maintains_pure _

theorem thrifty_fetchToken (supply : TokenSupply) :
    Thrifty name spared (Client.fetchToken supply) := by
  cases supply with
  | provider => exact thrifty_await .token
  | nobody => exact maintains_pure _
  | interactive => exact maintains_pure _

theorem thrifty_renewCredential : Thrifty name spared Client.renewCredential := by
  refine Maintains.bind (thrifty_modify fun c => kept_setTabs c _) fun _ => ?_
  refine Maintains.bind maintains_get fun c => ?_
  cases c.validator.supply with
  | nobody => exact maintains_pure _
  | interactive | provider =>
      refine Maintains.bind (thrifty_fetchToken _) fun r => ?_
      cases r with
      | error e => exact maintains_pure _
      | ok issued => exact thrifty_modify fun c => kept_setTabs c _

theorem thrifty_attemptChecks
    (h : spared → ∀ user, Limiter.bucketName Route.validate user ≠ name) (policy : RetryPolicy)
    (left done : Nat) : Thrifty name spared (Client.attemptChecks policy left done) := by
  have hfirst : ∀ (n : Nat) {β : Type} {x : Activity Client β}, Thrifty name spared x →
      Thrifty name spared (if 0 < n then do
        let _ ← Client.renewCredential
        x
      else x) := fun _ _ _ hx =>
    Maintains.ite (Maintains.bind thrifty_renewCredential fun _ => hx) hx
  have hreport : ∀ f : Instant → Client → Event,
      Thrifty name spared (Activity.change fun now c => c.trackAuth (f now c)) :=
    fun f => thrifty_change fun now c => rfl
  induction left generalizing done with
  | zero =>
      rw [Client.attemptChecks]
      refine hfirst _ (Maintains.bind (thrifty_checkToken h) fun r => ?_)
      cases r with
      | ok user => exact Maintains.bind (hreport _) fun _ => maintains_pure _
      | error e => exact Maintains.bind (hreport _) fun _ => maintains_pure _
  | succ left ih =>
      rw [Client.attemptChecks]
      refine hfirst _ (Maintains.bind (thrifty_checkToken h) fun r => ?_)
      cases r with
      | ok user => exact Maintains.bind (hreport _) fun _ => maintains_pure _
      | error e =>
          refine Maintains.bind (thrifty_modify fun c => rfl) fun _ => ?_
          exact Maintains.bind (thrifty_backOff policy done) fun _ => ih (done + 1)

theorem thrifty_validate
    (h : spared → ∀ user, Limiter.bucketName Route.validate user ≠ name) :
    Thrifty name spared Client.validate := by
  refine Maintains.bind (thrifty_step fun now c => rfl) fun begun => Maintains.ite ?_
    (maintains_pure _)
  refine Triple.guarded (fun _ _ _ hd => ⟨hd.1, hd.2.same rfl⟩) ?_
  refine Maintains.bind (thrifty_modify fun c => rfl) fun _ => Maintains.bind maintains_get fun c =>
    Maintains.bind (thrifty_attemptChecks h _ _ _) fun r => ?_
  cases r with
  | ok user =>
      refine Maintains.bind (thrifty_modify fun c => rfl) fun _ => ?_
      exact Maintains.bind (thrifty_modify fun c => rfl) fun _ => maintains_pure _
  | error e =>
      refine Maintains.bind (thrifty_modify fun c => rfl) fun _ => ?_
      refine Maintains.bind (thrifty_modify fun c => kept_setTabs c _) fun _ => ?_
      refine Maintains.bind (thrifty_modify fun c => rfl) fun _ => ?_
      refine Maintains.bind (thrifty_change fun now c => kept_ite_announce c _ now) fun _ => ?_
      exact maintains_pure _

theorem thrifty_validateSession
    (h : spared → ∀ user, Limiter.bucketName Route.validate user ≠ name) :
    Thrifty name spared Client.validateSession := by
  refine Maintains.bind (thrifty_validate h) fun r => ?_
  cases r with
  | error e => exact maintains_pure _
  | ok user =>
      refine Maintains.bind (thrifty_modify fun c => ?_) fun _ => ?_
      · split <;> rfl
      · exact Maintains.bind (thrifty_modify fun c => rfl) fun _ => maintains_pure _

theorem thrifty_refresh (force : Bool) : Thrifty name spared (Client.refresh force) := by
  have hrenew : Thrifty name spared Client.renewToken := by
    refine Maintains.bind maintains_get fun c => Maintains.bind (thrifty_fetchToken _) fun r => ?_
    cases r with
    | error e => exact maintains_pure _
    | ok issued =>
        refine Maintains.bind (thrifty_step fun now c => kept_setTabs c _) fun stored => ?_
        exact maintains_pure _
  have hturn : Thrifty name spared (Client.refreshInTurn force) := by
    refine Maintains.bind (thrifty_onTab _) fun needed => Maintains.ite (maintains_pure _) ?_
    refine Maintains.bind (thrifty_modify fun c => rfl) fun _ => Maintains.bind hrenew fun r => ?_
    cases r with
    | ok _ =>
        refine Maintains.bind (thrifty_modify fun c => rfl) fun _ => ?_
        refine Maintains.bind (thrifty_change fun now c => rfl) fun _ => ?_
        exact Maintains.bind (thrifty_modify fun c => rfl) fun _ => maintains_pure _
    | error e =>
        refine Maintains.bind (thrifty_modify fun c => rfl) fun _ => ?_
        exact Maintains.bind (thrifty_change fun now c => rfl) fun _ => maintains_pure _
  have htake : Thrifty name spared Client.takeTurn := by
    refine thrifty_within (fun c t => ?_) Turn.take
    rfl
  refine Maintains.bind htake fun _ => ?_
  refine Maintains.bind (Triple.guarded (fun _ _ _ hd => ⟨hd.1, hd.2.same rfl⟩) hturn) fun r => ?_
  exact Maintains.bind (thrifty_modify fun c => rfl) fun _ => maintains_pure _

theorem thrifty_watch (job : WatchJob) : Thrifty name spared (Client.watch job) := by
  cases job with
  | refreshTimer task =>
      refine Maintains.bind maintains_get fun c => Maintains.bind (thrifty_sleep _) fun _ => ?_
      refine Maintains.bind (thrifty_onTab _) fun stored => Maintains.ite ?_ (maintains_pure _)
      exact Maintains.bind (thrifty_refresh false) fun _ => maintains_pure _
  | expiryTimer task =>
      refine Maintains.bind maintains_get fun c => Maintains.bind (thrifty_onTab _) fun span => ?_
      refine Maintains.bind (thrifty_sleep _) fun _ => Maintains.bind maintains_now fun now => ?_
      refine Maintains.bind (thrifty_onTab _) fun e => Maintains.ite (maintains_pure _) ?_
      refine Maintains.bind (thrifty_modify fun c => kept_setTabs c _) fun _ => ?_
      exact Maintains.bind (thrifty_modify fun c => rfl) fun _ => maintains_pure _

/-! ## All work -/

theorem kept_start (c : Client) (now : Instant) : (c.start now).kept = c.kept := by
  unfold Client.start
  dsimp only
  split <;> exact kept_setTabs _ _

theorem kept_login (c : Client) (t : BearerToken) (e : Option Instant) (now : Instant) :
    (c.login t e now).2.kept = c.kept := by
  unfold Client.login
  have hinstall := kept_setTabs c (c.tabs.install c.own t e).2
  dsimp only
  split
  · generalize c.setTabs (c.tabs.install c.own t e).2 = d at hinstall
    have hread := kept_setTabs d (d.tabs.userId d.own now).2
    generalize d.setTabs (d.tabs.userId d.own now).2 = d' at hread
    exact hread.trans hinstall
  · exact hinstall

theorem kept_act (c : Client) (tab : Nat) (action : TabAction) (now : Instant) :
    (c.act tab action now).2.kept = c.kept := by
  unfold Client.act
  split
  · exact kept_setTabs c _
  · rfl

/-- Signing out drops all buckets, and leaves the limits. -/
theorem kept_logout (c : Client) :
    c.logout.kept = { c with limiter := c.limiter.resetAll }.kept := by
  have htabs := kept_setTabs c (c.tabs.endSession c.own .logout)
  exact congrArg (fun k => (k.1.resetAll, k.2)) htabs

theorem thrifty_serve {k : Operation} (h : spared → k.Spares name) :
    Thrifty name spared (Client.serve k) := by
  have hdone : ∀ {x : Activity Client PUnit}, Thrifty name spared x →
      Thrifty name spared (do x; return Reply.done) :=
    fun hx => Maintains.bind hx fun _ => maintains_pure _
  cases k with
  | start => exact hdone (thrifty_change fun now c => kept_start c now)
  | login t e => exact Maintains.map (thrifty_step fun now c => kept_login c t e now)
  | logout =>
      refine hdone (triple_modify fun _ i c hc => ?_)
      have hreset : Limiter.Spared name spared c.limiter c.limiter.resetAll :=
        ⟨rfl, fun hs => (h hs).elim⟩
      exact (hc.limited hreset).same (kept_logout c)
  | refresh force => exact Maintains.map (thrifty_refresh force)
  | validate => exact Maintains.map (thrifty_validate h)
  | validateSession => exact Maintains.map (thrifty_validateSession h)
  | send r => exact Maintains.map (thrifty_send h)
  | sendWithRetry r =>
      refine Maintains.map (Maintains.bind maintains_get fun c => ?_)
      exact thrifty_sendRetrying h c.retry c.retry.maxRetries 0
  | armTimers => exact hdone (thrifty_modify fun c => rfl)
  | stopTimers => exact hdone (thrifty_modify fun c => rfl)
  | setVisibility inBackground => exact hdone (thrifty_modify fun c => rfl)
  | trackAuth e => exact hdone (thrifty_modify fun c => rfl)
  | trackRequest e => exact hdone (thrifty_trackRequest e)
  | flushAuth => exact hdone (thrifty_batcher _)
  | flushRequests => exact hdone (thrifty_batcher _)
  | teardown => exact Maintains.map (thrifty_step fun now c => rfl)
  | onTab tab action => exact thrifty_step fun now c => kept_act c tab action now

theorem thrifty_perform (j : Job) : Thrifty name spared (Client.perform j) := by
  cases j with
  | telemetry job => exact Maintains.map (thrifty_batcher _)
  | supervision job => exact Maintains.map (thrifty_watch job)

/-- What each stretch of all work does to the limiter. -/
theorem thrifty_carryOut {work : Work Operation Job}
    (h : spared → ∀ k, work = .call k → k.Spares name) :
    Thrifty name spared (workplace.carryOut work) := by
  cases work with
  | call k => exact Maintains.map (thrifty_serve fun hs => h hs k rfl)
  | job j =>
      refine Maintains.bind (thrifty_perform j) fun next => ?_
      cases next with
      | some j' => exact maintains_pure _
      | none => exact maintains_pure _

/-- Work that spares a bucket: the operations that do, and all jobs. -/
def SparedBy (name : String) (work : Work Operation Job) : Prop :=
  ∀ k, work = .call k → k.Spares name

/-- The rules that no limit is changed, nor a bucket that work spares, and that the client presents
itself as before. -/
def thriftRules (name : String) : Rules Unit Client Operation Reply Job where
  memo := ()
  pact work _ i _ c _ := Unaltered name (SparedBy name work) i.state c
  outcome work _ i _ c := Unaltered name (SparedBy name work) i.state c

theorem thriftRules_keptBy (name : String) : (thriftRules name).KeptBy workplace where
  drops _ _ _ := .refl _
  meets _ now c :=
    ((thrifty_carryOut fun hs => hs).meets () ⟨none, now, c⟩ c (.refl _)).mono
      (fun _ _ _ _ _ hp => hp.2) fun _ _ _ _ hq => hq

/-! ## Courses -/

variable {c : Client} {ms : List Moment} {s : Scene} {x : Moment}

theorem thrift_of_mem (h : Course (scene c) ms s) (hx : x ∈ ms) (name : String) :
    Unaltered name (SparedBy name x.work) x.start.state x.left := by
  have hkeeps := (thriftRules_keptBy name).all h x hx
  unfold Rules.Keeps at hkeeps
  split at hkeeps
  · exact hkeeps.1
  · exact hkeeps

theorem spared_of_mem (h : Course (scene c) ms s) (hx : x ∈ ms) (name : String) :
    Limiter.Spared name (SparedBy name x.work) x.start.state.limiter x.left.limiter :=
  (thrift_of_mem h hx name).limiter

theorem kept_abandonJob (c : Client) (j : Job) : (c.abandonJob j).kept = c.kept := by
  unfold abandonJob
  split <;> first | split <;> rfl | rfl

theorem Step.kept_eq (hx : Step s x) : x.after.state.kept = x.left.kept := by
  rcases hx.after_state with h | ⟨-, j, -, h⟩
  · rw [h]
    rfl
  · rw [h]
    exact kept_abandonJob x.left j

theorem Step.limiter_eq (hx : Step s x) : x.after.state.limiter = x.left.limiter :=
  congrArg (·.1) (Step.kept_eq hx)

/-- No limit is ever changed. -/
theorem limits_of_course (h : Course (scene c) ms s) :
    s.state.limiter.limits = c.limiter.limits ∧
      ∀ x ∈ ms, x.start.state.limiter.limits = c.limiter.limits := by
  induction h with
  | nil => exact ⟨rfl, fun _ hx => (nomatch hx)⟩
  | @snoc ms t x hbefore hx ih =>
      obtain ⟨hlimits, hall⟩ := ih
      have hspared := spared_of_mem (hbefore.snoc hx) (x := x) (by simp) ""
      have hstart : x.start.state.limiter.limits = c.limiter.limits := by
        rw [hx.start_state]
        exact hlimits
      refine ⟨?_, fun y hy => ?_⟩
      · rw [Step.limiter_eq hx, hspared.limits, hstart]
      · rcases List.mem_append.mp hy with hy | hy
        · exact hall y hy
        · obtain rfl := List.mem_singleton.mp hy
          exact hstart

end Client

end ClientSession
