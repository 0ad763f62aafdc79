import ClientSession.Proofs.Client.Asides

/-!
# What calls maintain

A call waits for its turn under a limit, for the server and before another attempt. An assertion
that survives these waits survives calls, as often as they are attempted, and the check of a token.
One that speaks of the answer of the server may have to wait until the answer has been heeded.

- `Patient`, `Enduring`: what an assertion needs so that waits maintain it. A token that can be
  stored is not among the answers; what holds once it is stored is an assertion of its own.
- `Calling`, `Lasting`: what it needs so that calls do.
- `Calling.sendWithRetry`, `Calling.checkToken`: calls maintain it.
-/

namespace ClientSession

open Activity

namespace Client

variable {μ : Type}

/-- The client once a token that was issued is stored, if it can be. -/
def store (c : Client) (t : IssuedToken) : Client :=
  c.setTabs (c.tabs.install c.own t.token t.expiresAt).2

/-- A steady assertion that survives waits other than for the server; `S` holds where a wait ended
with a token that was then stored. -/
structure Patient (P : Pact μ Client) (A S : μ → Start Client → Client → Prop) : Prop
    extends Steady P A where
  stays : ∀ m i c, A m i c → P m i .stays c m
  drops : ∀ m i c c', P m i .drops c m → Aside c c' → P m i .drops c' m
  waits : ∀ m i c w, A m i c → w.isCall = false → ∃ m', P m i (.waits w) c m' ∧
    (∀ now c, P m' ⟨none, now, c⟩ .drops c m') ∧
    (∀ a now c, Cue.storable? ⟨w, a⟩ = none → A m' ⟨some ⟨w, a⟩, now, c⟩ c) ∧
    ∀ t now c, Cue.storable? ⟨.token, .ok t⟩ = some t →
      S m' ⟨some ⟨.token, .ok t⟩, now, c⟩ (c.store t)

/-- An assertion that survives all waits. -/
structure Enduring (P : Pact μ Client) (A S : μ → Start Client → Client → Prop) : Prop
    extends Patient P A S where
  calls : ∀ m i c r, A m i c → ∃ m', P m i (.waits (.call r)) c m' ∧
    (∀ now c, P m' ⟨none, now, c⟩ .drops c m') ∧
    ∀ outcome now c, A m' ⟨some ⟨.call r, outcome⟩, now, c⟩ c

/-- `B` holds from an answer of the server until it is heeded, and `A` from then on. An answer is
heeded by ending the session if it refuses the token of a call that needs a session. -/
structure Heeding (P : Pact μ Client) (A B : μ → Start Client → Client → Prop) : Prop
    extends Steady P B where
  calls : ∀ m i c r, A m i c → ∃ m', P m i (.waits (.call r)) c m' ∧
    (∀ now c, P m' ⟨none, now, c⟩ .drops c m') ∧
    ∀ outcome now c, B m' ⟨some ⟨.call r, outcome⟩, now, c⟩ c
  heeds : ∀ m i c, B m i c → i.expelled = false → A m i c
  expels : ∀ m i c, B m i c → i.expelled = true →
    A m i (c.mapTabs fun w => w.endSession c.own .unauthorized)

/-- An assertion that survives calls. -/
structure Calling (P : Pact μ Client) (A S : μ → Start Client → Client → Prop) : Prop
    extends Patient P A S where
  heeding : ∃ B, Heeding P A B

/-- An assertion that survives calls and holds all the while. -/
structure Lasting (P : Pact μ Client) (A S : μ → Start Client → Client → Prop) : Prop
    extends Enduring P A S where
  refuses : ∀ m i c, A m i c → i.expelled = true →
    A m i (c.mapTabs fun w => w.endSession c.own .unauthorized)

theorem Lasting.calling {P : Pact μ Client} {A S : μ → Start Client → Client → Prop}
    (hA : Lasting P A S) : Calling P A S where
  toPatient := hA.toPatient
  heeding := ⟨A, hA.toSteady, hA.calls, fun _ _ _ h _ => h, hA.refuses⟩

theorem storable?_of_ne {w : Wait} (hw : w ≠ .token) (a : w.Answer) :
    Cue.storable? ⟨w, a⟩ = none := by
  cases w with
  | token => exact absurd rfl hw
  | sleep span => rfl
  | call r => rfl
  | deliver b => rfl
  | turn ticket => rfl

/-- The wait is neither for a token nor for the server. -/
def Wait.Aside (w : Wait) : Prop := w ≠ .token ∧ w.isCall = false

namespace Patient

variable {P : Pact μ Client} {A S : μ → Start Client → Client → Prop}

theorem sleep (hA : Patient P A S) (span : Span) : Maintains P A (Activity.sleep span) := by
  refine Maintains.ite (triple_await fun m i c h => ?_) (maintains_pure ())
  obtain ⟨m', hp, hd, ha, -⟩ := hA.waits m i c (.sleep span) h rfl
  exact ⟨m', hp, hd, fun a now c => ha a now c rfl⟩

theorem carries {σ : Type} (hA : Patient P A S) {get : Client → σ} {put : Client → σ → Client}
    {I : σ → σ → Prop} (hput : ∀ c s, I (get c) s → Aside c (put c s)) :
    Carries P A get put Wait.Aside I where
  moves m i c s h hs := hA.aside m i c _ h (hput c s hs)
  faults := hA.faults
  stays := hA.stays
  waits m i c w h hw := by
    obtain ⟨m', hp, hd, ha, -⟩ := hA.waits m i c w h hw.2
    refine ⟨m', hp, fun now c s hs => ?_, fun a now c => ha a now c (storable?_of_ne hw.1 a)⟩
    exact hA.drops m' _ c _ (hd now c) (hput c s hs)

/-- Work on a part that the session does not depend on. -/
theorem within {σ α : Type} (hA : Patient P A S) {get : Client → σ} {put : Client → σ → Client}
    (hput : ∀ c s, Aside c (put c s)) {x : Activity σ α}
    (hx : Moves Wait.Aside (fun _ _ => True) x) : Maintains P A (x.within get put) :=
  (hA.carries fun c s _ => hput c s).within (fun _ => trivial) hx

theorem moves_acquire (endpoint : String) (user : Option String) :
    Moves Wait.Aside (fun _ _ => True) (Limiter.acquire endpoint user) := by
  refine Maintains.bind maintains_get fun l => ?_
  cases l.limit? endpoint with
  | none => exact maintains_pure _
  | some limit =>
      refine Maintains.bind (moves_attempt fun _ _ _ _ _ _ => trivial) fun wait => ?_
      cases wait with
      | none => exact maintains_pure _
      | some wait =>
          refine Maintains.bind (moves_sleep (fun _ => trivial) ⟨nofun, rfl⟩) fun _ => ?_
          refine Maintains.bind (moves_attempt fun _ _ _ _ _ _ => trivial) fun _ => ?_
          exact maintains_pure _

theorem acquire (hA : Patient P A S) (endpoint : String) (user : Option String) :
    Maintains P A (Client.acquire endpoint user) :=
  hA.within aside_limiter (moves_acquire endpoint user)

theorem backOff (hA : Patient P A S) (policy : RetryPolicy) (done : Nat) :
    Maintains P A (Client.backOff policy done) := by
  refine Maintains.bind (hA.draw _) fun jitter => ?_
  refine Maintains.bind (hA.attempt fun now c r hr => ?_) fun span => hA.sleep span
  cases hd : policy.delay done jitter with
  | error f =>
      rw [hd] at hr
      cases hr
  | ok span =>
      rw [hd] at hr
      cases hr
      exact .refl c

end Patient

/-- Work of the batcher beside the callers. It calls the server too. -/
theorem Enduring.telemetry {P : Pact μ Client} {A S : μ → Start Client → Client → Prop} {α : Type}
    (hA : Enduring P A S) {x : Activity Batcher α} (hx : Batcher.Unattributing x) :
    Maintains P A (x.within (·.batcher) setBatcher) := by
  have hcarries : Carries P A (·.batcher) setBatcher (· ≠ .token) Batcher.SameUser := by
    refine ⟨fun m i c b h hb => hA.aside m i c _ h (aside_setBatcher hb), hA.faults, hA.stays,
      fun m i c w h hw => ?_⟩
    have hdrop : ∀ m' now c b, P m' ⟨none, now, c⟩ .drops c m' → Batcher.SameUser c.batcher b →
        P m' ⟨none, now, c⟩ .drops (c.setBatcher b) m' :=
      fun m' now c b hd hb => hA.drops m' _ c _ hd (aside_setBatcher hb)
    by_cases hcall : w.isCall = true
    · obtain ⟨r, rfl⟩ : ∃ r, w = .call r := by
        cases w with
        | call r => exact ⟨r, rfl⟩
        | _ => cases hcall
      obtain ⟨m', hp, hd, ha⟩ := hA.calls m i c r h
      exact ⟨m', hp, fun now c b hb => hdrop m' now c b (hd now c) hb, ha⟩
    · obtain ⟨m', hp, hd, ha, -⟩ := hA.waits m i c w h (by simpa using hcall)
      exact ⟨m', hp, fun now c b hb => hdrop m' now c b (hd now c) hb,
        fun a now c => ha a now c (storable?_of_ne hw a)⟩
  exact hcarries.within Batcher.SameUser.refl hx

/-! ## Calls -/

/-- What follows from the status of a failed answer. -/
theorem Heeding.heedStatus {P : Pact μ Client} {A B : μ → Start Client → Client → Prop}
    (hB : Heeding P A B) (hA : Steady P A) {r : Request} {path : String}
    (hpath : Route.normalize r.path = path) (response : Response) (elapsed : Span) :
    Triple P (fun m i c => B m i c ∧ i.cue = some ⟨.call r, .ok response⟩)
      (Client.heedStatus r path response elapsed) fun m i _ c => A m i c := by
  -- Only where the answer expels the session is touched; else the answer is heeded as it is.
  have hquiet : ¬(response.status = 401 ∧ Route.requiresAuth path = true) →
      ∀ m i c, B m i c ∧ i.cue = some ⟨.call r, .ok response⟩ → A m i c := by
    rintro hstatus m i c ⟨h, hi⟩
    refine hB.heeds m i c h (Bool.eq_false_iff.mpr fun hexpelled => hstatus ?_)
    rw [expelled_call hi, hpath] at hexpelled
    exact hexpelled
  have hheeded : ∀ {x : Activity Client Unit},
      ¬(response.status = 401 ∧ Route.requiresAuth path = true) → Maintains P A x →
      Triple P (fun m i c => B m i c ∧ i.cue = some ⟨.call r, .ok response⟩) x
        fun m i _ c => A m i c :=
    fun hstatus hx => hx.conseq (hquiet hstatus) fun _ _ _ _ h => h
  unfold Client.heedStatus
  refine Triple.bind (maintains_now (A := fun m i c => B m i c ∧
    i.cue = some ⟨.call r, .ok response⟩)) fun now => ?_
  refine Triple.ite (fun h401 => Triple.ite (fun hauth => ?_) fun hpublic => ?_) fun h401 => ?_
  · refine Triple.bind (M := fun m i _ c => A m i c) (triple_modify ?_) fun _ => ?_
    · rintro m i c ⟨h, hi⟩
      refine hB.expels m i c h ?_
      rw [expelled_call hi, hpath]
      exact ⟨h401, hauth⟩
    refine Triple.bind (hA.modify fun c => ?_) fun _ => hA.modify fun c => aside_trackAuth c _
    exact aside_of_parts rfl rfl rfl rfl rfl
  · exact hheeded (fun h => hpublic h.2) (maintains_pure ())
  · have hother : ¬(response.status = 401 ∧ Route.requiresAuth path = true) := fun h => h401 h.1
    refine Triple.ite (fun _ => ?_) fun _ => Triple.ite (fun _ => ?_) fun _ => ?_
    · exact hheeded hother (hA.modify fun c => aside_trackAuth c _)
    · exact hheeded hother (hA.trackRequest _)
    · exact hheeded hother (maintains_pure ())

namespace Calling

variable {P : Pact μ Client} {A S : μ → Start Client → Client → Prop}

theorem exchange (hA : Calling P A S) {r : Request} {path : String}
    (hpath : Route.normalize r.path = path) : Maintains P A (Client.exchange r path) := by
  obtain ⟨B, hB⟩ := hA.heeding
  -- The stretch that goes on with the outcome knows that it began with it.
  let Told (outcome : TransportOutcome) (m : μ) (i : Start Client) (c : Client) : Prop :=
    B m i c ∧ i.cue = some ⟨.call r, outcome⟩
  have hTold : ∀ outcome, Steady P (Told outcome) := fun outcome => hB.given _
  refine Triple.bind (M := fun m i outcome c => Told outcome m i c) ?_ fun outcome => ?_
  · refine triple_await fun m i c h => ?_
    obtain ⟨m', hp, hd, ha⟩ := hB.calls m i c r h
    exact ⟨m', hp, hd, fun outcome now c => ⟨ha outcome now c, rfl⟩⟩
  refine Triple.bind (maintains_now (A := Told outcome)) fun now => ?_
  refine Triple.bind ((hTold outcome).attempt fun now c r' hr => ?_) fun elapsed => ?_
  · cases he : r.elapsed now with
    | error f =>
        rw [he] at hr
        cases hr
    | ok span =>
        rw [he] at hr
        cases hr
        exact .refl c
  cases outcome with
  | error failure =>
      have hreport := Maintains.bind
        (hA.reportFailure r path none elapsed (classify (.transport failure) now)) fun _ =>
          maintains_pure (Except.error (classify (.transport failure) now) : CallResult)
      refine hreport.conseq ?_ fun m i a c h => h
      rintro m i c ⟨h, hi⟩
      exact hB.heeds m i c h (expelled_failed hi)
  | ok response =>
      refine Triple.bind ((hTold (.ok response)).modify fun c => ?_) fun _ => ?_
      · exact aside_of_parts rfl rfl rfl rfl rfl
      refine Triple.ite (fun hsuccess => ?_) fun _ => ?_
      · refine (Maintains.ite (A := A) ?_ (maintains_pure _)).conseq ?_ fun m i a c h => h
        · exact Maintains.bind (hA.trackRequest _) fun _ => maintains_pure _
        · rintro m i c ⟨h, hi⟩
          refine hB.heeds m i c h (Bool.eq_false_iff.mpr fun hexpelled => ?_)
          rw [Response.isSuccess, ((expelled_call hi).mp hexpelled).1] at hsuccess
          cases hsuccess
      · refine Triple.bind (hB.heedStatus hA.toSteady hpath response elapsed) fun _ => ?_
        exact Maintains.bind (hA.reportFailure _ _ _ _ _) fun _ => maintains_pure _

theorem authorize (hA : Calling P A S) {r : Request} {path : String}
    (hpath : Route.normalize r.path = path) (started : Instant) :
    Maintains P A (Client.authorize r path started) := by
  refine Maintains.ite ?_ (hA.exchange hpath)
  refine Maintains.bind (hA.look fun w i now h => Tabs.token_recalls h i now) fun token => ?_
  cases token with
  | none => exact Maintains.bind (hA.reject _ _ _) fun _ => maintains_pure _
  | some token =>
      refine Maintains.bind (hA.modify fun c => aside_trackAuth c _) fun _ => ?_
      exact hA.exchange (r := r.setHeader "authorization" token.authorization) hpath

theorem dispatch (hA : Calling P A S) (request : Request) :
    Maintains P A (Client.dispatch request) := by
  refine Maintains.bind maintains_now fun started => ?_
  refine Triple.bind (M := fun m i r c => A m i c ∧ r.path = request.path)
    (triple_step fun m i c h => ?_) fun r => Triple.of_fact fun hr => ?_
  · exact ⟨hA.aside m i c _ h (aside_prepare c request i.now), path_prepare c request i.now⟩
  have hauthorize := hA.authorize (congrArg Route.normalize hr) started
  refine Maintains.ite ?_ hauthorize
  refine Maintains.bind (hA.acquire _ _) fun granted => ?_
  refine Maintains.ite hauthorize ?_
  refine Maintains.bind (hA.remainingWait _ _) fun wait => ?_
  exact Maintains.bind (hA.reject _ _ _) fun _ => maintains_pure _

theorem send (hA : Calling P A S) (request : Request) : Maintains P A (Client.send request) := by
  refine Maintains.bind (hA.modify fun c => aside_count c _) fun _ => ?_
  refine Maintains.bind (hA.dispatch request) fun outcome => ?_
  cases outcome with
  | ok response =>
      exact Maintains.bind (hA.modify fun c => aside_count c _) fun _ => maintains_pure _
  | error e =>
      refine Maintains.bind (hA.modify fun c => aside_count c _) fun _ => ?_
      refine Maintains.bind (hA.change fun now c => ?_) fun _ => maintains_pure _
      dsimp only
      split <;> exact aside_of_parts rfl rfl rfl rfl rfl

theorem sendRetrying (hA : Calling P A S) (policy : RetryPolicy) (request : Request)
    (left done : Nat) : Maintains P A (Client.sendRetrying policy request left done) := by
  induction left generalizing done with
  | zero => exact hA.send request
  | succ left ih =>
      refine Maintains.bind (hA.send request) fun outcome => ?_
      cases outcome with
      | ok response => exact maintains_pure _
      | error e =>
          refine Maintains.ite ?_ (maintains_pure _)
          refine Maintains.bind (hA.modify fun c => aside_count c _) fun _ => ?_
          exact Maintains.bind (hA.backOff policy done) fun _ => ih (done + 1)

theorem sendWithRetry (hA : Calling P A S) (request : Request) :
    Maintains P A (Client.sendWithRetry request) :=
  Maintains.bind maintains_get fun c => hA.sendRetrying c.retry request c.retry.maxRetries 0

theorem checkToken (hA : Calling P A S) : Maintains P A Client.checkToken := by
  refine Maintains.bind (hA.look fun w i now h => Tabs.userId_recalls h i now) fun user => ?_
  refine Maintains.bind (hA.acquire _ _) fun granted => ?_
  refine Maintains.ite ?_ ?_
  · refine Maintains.bind (hA.send _) fun outcome => ?_
    cases outcome with
    | error e => exact maintains_pure _
    | ok response =>
        dsimp only
        split <;> exact maintains_pure _
  · refine Maintains.bind (hA.remainingWait _ _) fun wait => ?_
    exact Maintains.bind maintains_now fun now => maintains_pure _

end Calling

end Client

end ClientSession
