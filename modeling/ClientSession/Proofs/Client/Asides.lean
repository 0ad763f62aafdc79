import ClientSession.Client.Lifecycle
import ClientSession.Proofs.Session.Recollection
import ClientSession.Proofs.Stretches
import ClientSession.Proofs.Telemetry.Attribution

/-!
# What calls do aside

Most of what a client does leaves its session alone: it counts, limits, reports and announces. An
assertion about a stretch that such changes do not touch, nor what a tab recalls when it reads its
session, is maintained by whatever is made of them. What else a call does is to wait, and to end the
session when the server refuses the token.

- `Aside`: a change that leaves the session, its timers and its user alone.
- `Steady`: an assertion that survives such changes and reads of the session.
-/

namespace ClientSession

/-- The wait is for the server. -/
def Wait.isCall : Wait → Bool
  | .call _ => true
  | _ => false

/-- The token that a wait ended with, if it can be stored. -/
def Cue.storable? : Cue → Option IssuedToken
  | ⟨.token, .ok t⟩ => if (Tabs.term? t.token t.expiresAt).isSome then some t else none
  | _ => none

/-- The stretch begins with a token that can be stored. -/
def Start.stores {σ : Type} (i : Start σ) : Bool := i.cue.any fun q => q.storable?.isSome

theorem stores_of_storable? {σ : Type} {q : Cue} (hq : q.storable? = none) {now : Instant} {s : σ} :
    Start.stores ⟨some q, now, s⟩ = false := by
  simp [Start.stores, hq]

theorem stores_token {σ : Type} {t : IssuedToken} (ht : Cue.storable? ⟨.token, .ok t⟩ = some t)
    {now : Instant} {s : σ} : Start.stores ⟨some ⟨.token, .ok t⟩, now, s⟩ = true := by
  simp [Start.stores, ht]

/-- The wait ended with an answer of the server that refuses the token. -/
def Cue.refuses : Cue → Bool
  | ⟨.call _, .ok a⟩ => a.status = 401
  | _ => false

/-- The stretch begins with such an answer. -/
def Start.refused {σ : Type} (i : Start σ) : Bool := i.cue.any (·.refuses)

/-- The wait ended with such an answer to a call that needs a session. -/
def Cue.expels : Cue → Bool
  | ⟨.call r, .ok a⟩ => a.status = 401 && Route.requiresAuth (Route.normalize r.path)
  | _ => false

/-- The stretch begins with a refusal of the token of a call that needs a session. -/
def Start.expelled {σ : Type} (i : Start σ) : Bool := i.cue.any (·.expels)

theorem expelled_call {σ : Type} {r : Request} {a : Response} {i : Start σ}
    (hi : i.cue = some ⟨.call r, .ok a⟩) : i.expelled = true ↔
      a.status = 401 ∧ Route.requiresAuth (Route.normalize r.path) = true := by
  rw [Start.expelled, hi]
  show (decide (a.status = 401) && _) = true ↔ _
  rw [Bool.and_eq_true, decide_eq_true_eq]

theorem expelled_failed {σ : Type} {r : Request} {f : TransportFailure} {i : Start σ}
    (hi : i.cue = some ⟨.call r, .error f⟩) : i.expelled = false := by
  rw [Start.expelled, hi]
  rfl

theorem refused_of_expelled {σ : Type} {i : Start σ} (h : i.expelled = true) :
    i.refused = true := by
  obtain ⟨q, hq, hexpels⟩ := (Option.any_eq_true _ _).mp h
  refine (Option.any_eq_true _ _).mpr ⟨q, hq, ?_⟩
  unfold Cue.expels at hexpels
  split at hexpels
  · rw [Bool.and_eq_true] at hexpels
    exact hexpels.1
  · cases hexpels

namespace Client

variable {μ : Type} {c c' c'' : Client}

/-- A change that leaves the session, its timers and its user alone; retries may be counted. -/
structure Aside (c c' : Client) : Prop where
  own : c'.own = c.own
  tabs : c'.tabs = c.tabs
  user : c'.batcher.user = c.batcher.user
  state : c'.validator.state = c.validator.state
  refreshTask : c'.supervisor.refreshTask = c.supervisor.refreshTask
  expiryTask : c'.supervisor.expiryTask = c.supervisor.expiryTask
  hasWorkers : c'.supervisor.hasWorkers = c.supervisor.hasWorkers
  nextTask : c'.supervisor.nextTask = c.supervisor.nextTask
  retries : c.validator.tally.retries ≤ c'.validator.tally.retries

/-- A change of none of the parts that the session, its timers and its user belong to. -/
theorem aside_of_parts (ho : c'.own = c.own) (ht : c'.tabs = c.tabs) (hb : c'.batcher = c.batcher)
    (hv : c'.validator = c.validator) (hs : c'.supervisor = c.supervisor) : Aside c c' where
  own := ho
  tabs := ht
  user := by rw [hb]
  state := by rw [hv]
  refreshTask := by rw [hs]
  expiryTask := by rw [hs]
  hasWorkers := by rw [hs]
  nextTask := by rw [hs]
  retries := Nat.le_of_eq (by rw [hv])

protected theorem Aside.refl (c : Client) : Aside c c := aside_of_parts rfl rfl rfl rfl rfl

theorem aside_setBatcher {b : Batcher} (h : b.user = c.batcher.user) : Aside c (c.setBatcher b) :=
  ⟨rfl, rfl, h, rfl, rfl, rfl, rfl, rfl, Nat.le_refl _⟩

theorem aside_trackAuth (c : Client) (e : Event) : Aside c (c.trackAuth e) :=
  aside_setBatcher (Batcher.user_trackAuth _ e)

theorem aside_setSupervisor {s : Supervisor} (hr : s.refreshTask = c.supervisor.refreshTask)
    (he : s.expiryTask = c.supervisor.expiryTask) (hw : s.hasWorkers = c.supervisor.hasWorkers)
    (hn : s.nextTask = c.supervisor.nextTask) : Aside c (c.setSupervisor s) :=
  ⟨rfl, rfl, rfl, rfl, hr, he, hw, hn, Nat.le_refl _⟩

theorem aside_mapTurn (c : Client) (f : Turn → Turn) : Aside c (c.mapTurn f) :=
  aside_setSupervisor rfl rfl rfl rfl

theorem aside_countRefresh (c : Client) (o : Outcome) :
    Aside c (c.mapSupervisor (·.count o)) := aside_setSupervisor rfl rfl rfl rfl

theorem aside_countValidation (c : Client) (o : Outcome) :
    Aside c (c.mapValidator (·.count o)) := by
  refine ⟨rfl, rfl, rfl, rfl, rfl, rfl, rfl, rfl, ?_⟩
  cases o <;> simp [mapValidator, Validator.count, Tally.add]

theorem aside_count (c : Client) (o : Outcome) : Aside c (c.count o) :=
  aside_of_parts rfl rfl rfl rfl rfl

theorem aside_limiter (c : Client) (l : Limiter) : Aside c { c with limiter := l } :=
  aside_of_parts rfl rfl rfl rfl rfl

theorem aside_prepare (c : Client) (r : Request) (now : Instant) : Aside c (c.prepare r now).2 :=
  aside_of_parts rfl rfl rfl rfl rfl

theorem path_setHeader (r : Request) (name value : String) :
    (r.setHeader name value).path = r.path := rfl

theorem path_foldl_setHeader (r : Request) (headers : List (String × String)) :
    (headers.foldl (fun r h => r.setHeader h.1 h.2) r).path = r.path := by
  induction headers generalizing r with
  | nil => rfl
  | cons h headers ih => rw [List.foldl_cons, ih, path_setHeader]

theorem path_secure (r : Request) (profile : DeviceProfile) (csrf : Option String) (now : Instant)
    (nonce : Nat) : (r.secure profile csrf now nonce).path = r.path := by
  unfold Request.secure
  extract_lets hardened marked named stamped
  have hpath : stamped.path = r.path := by
    rw [path_setHeader, path_setHeader, path_setHeader, path_foldl_setHeader]
  -- What the headers are must not be computed.
  clear_value stamped
  split
  · split
    · exact hpath
    · rw [path_setHeader, hpath]
  · exact hpath

/-- What a request is given before it is sent does not change where it goes. -/
theorem path_prepare (c : Client) (r : Request) (now : Instant) :
    (c.prepare r now).1.path = r.path := by
  rw [prepare, path_secure, Request.stampStart, path_setHeader]

/-! ## Steady assertions -/

/-- An assertion that changes aside and reads of the session leave true, and under which a stretch
may fault. -/
structure Steady (P : Pact μ Client) (A : μ → Start Client → Client → Prop) : Prop where
  aside : ∀ m i c c', A m i c → Aside c c' → A m i c'
  recalls : ∀ m i c w, A m i c → (c.tabs.backend.Healthy → Tabs.Recalls c.own c.tabs w) →
    A m i (c.setTabs w)
  faults : ∀ m i c, A m i c → P m i .faults c m

namespace Steady

open Activity

variable {P : Pact μ Client} {A : μ → Start Client → Client → Prop}

/-- What is known of the start of the stretch stays known. -/
theorem given (hA : Steady P A) (φ : Start Client → Prop) :
    Steady P fun m i c => A m i c ∧ φ i where
  aside m i c c' h hc := ⟨hA.aside m i c c' h.1 hc, h.2⟩
  recalls m i c w h hw := ⟨hA.recalls m i c w h.1 hw, h.2⟩
  faults m i c h := hA.faults m i c h.1

theorem modify (hA : Steady P A) {f : Client → Client} (hf : ∀ c, Aside c (f c)) :
    Maintains P A (modify f : Activity Client PUnit) :=
  triple_modify fun m i c h => hA.aside m i c _ h (hf c)

theorem change (hA : Steady P A) {f : Instant → Client → Client} (hf : ∀ now c, Aside c (f now c)) :
    Maintains P A (Activity.change f) :=
  triple_change fun m i c h => hA.aside m i c _ h (hf i.now c)

theorem step {α : Type} (hA : Steady P A) {f : Instant → Client → α × Client}
    (hf : ∀ now c, Aside c (f now c).2) : Maintains P A (Activity.step f) :=
  triple_step fun m i c h => hA.aside m i c _ h (hf i.now c)

theorem attempt {α : Type} (hA : Steady P A) {f : Instant → Client → Checked (α × Client)}
    (hf : ∀ now c r, f now c = .ok r → Aside c r.2) : Maintains P A (Activity.attempt f) :=
  triple_attempt hA.faults fun m i c r h hr => hA.aside m i c _ h (hf i.now c r hr)

theorem look {α : Type} (hA : Steady P A) {f : Tabs → Nat → Instant → α × Tabs}
    (hf : ∀ w i now, w.backend.Healthy → Tabs.Recalls i w (f w i now).2) :
    Maintains P A (onTab f) :=
  triple_step fun m i c h => hA.recalls m i c _ h (hf c.tabs c.own i.now)

theorem trackRequest (hA : Steady P A) (e : Event) : Maintains P A (Client.trackRequest e) := by
  unfold Client.trackRequest
  refine hA.attempt fun now c r hr => ?_
  cases hb : c.batcher.trackRequest e now with
  | error f =>
      rw [hb] at hr
      cases hr
  | ok p =>
      rw [hb] at hr
      cases hr
      exact aside_setBatcher (Batcher.user_trackRequest hb)

theorem remainingWait (hA : Steady P A) (endpoint : String) (user : Option String) :
    Maintains P A (Client.remainingWait endpoint user) := by
  unfold Client.remainingWait
  refine hA.attempt fun now c r hr => ?_
  cases hl : c.limiter.remainingWait endpoint user now with
  | error f =>
      rw [hl] at hr
      cases hr
  | ok p =>
      rw [hl] at hr
      cases hr
      exact aside_limiter c _

theorem draw (hA : Steady P A) (bound : Nat) : Maintains P A (Client.draw bound) := by
  unfold Client.draw
  refine hA.step fun _ c => ?_
  split
  · exact .refl c
  · exact aside_of_parts rfl rfl rfl rfl rfl

theorem reject (hA : Steady P A) (r : Request) (path : String) (failure : LocalFailure) :
    Maintains P A (Client.reject r path failure) := by
  unfold Client.reject
  refine Maintains.bind maintains_now fun now => ?_
  refine Maintains.bind (hA.modify fun c => ?_) fun _ => ?_
  · exact aside_of_parts rfl rfl rfl rfl rfl
  · exact Maintains.bind (hA.trackRequest _) fun _ => maintains_pure _

theorem reportFailure (hA : Steady P A) (r : Request) (path : String) (status : Option Nat)
    (elapsed : Span) (e : ApiError) :
    Maintains P A (Client.reportFailure r path status elapsed e) := by
  unfold Client.reportFailure
  refine Maintains.bind maintains_now fun now => ?_
  exact Maintains.ite (maintains_pure _) (hA.trackRequest _)

end Steady

end Client

end ClientSession
