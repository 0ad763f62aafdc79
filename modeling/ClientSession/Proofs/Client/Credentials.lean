import ClientSession.Proofs.Client.Throttle
import ClientSession.Proofs.Http.Routing
import ClientSession.Proofs.Http.Stamps

/-!
# What a call carries

A call is handed over with the stamps of its first stretch, though it may have waited for a token of
its route since, and with the token of the session as it is when the call is made. Without a token
of the session a call that needs one is not made.

- `Client.Presented`: the request that is handed over.
- `Client.Fate`: what becomes of a call in a stretch before it is made.
- `Client.vouches_send`: every stretch of a call comes to such a fate, or settles a call that was
  made.
-/

namespace ClientSession

namespace Tabs

/-- A read of the token tells this one, and it lasts beyond now: as the tab remembers, or as it is
stored or claimed of the stored token. -/
structure LiveToken (w : Tabs) (i : Nat) (now : Instant) (t : BearerToken) : Prop where
  told : (w.token i now).1 = some t
  lasts : ∃ e, now < e ∧
    ((w.cache i).token = some t ∧ (w.cache i).expiresAt = some e ∨
      (w.storedToken i).1 = some t ∧
        ((w.storedToken i).2.storedExpiry i).1.or (claimedExpiry? t) = some e)

theorem liveToken_of_token {w : Tabs} {i : Nat} {now : Instant} {t : BearerToken}
    (h : (w.token i now).1 = some t) : w.LiveToken i now t := by
  refine ⟨h, ?_⟩
  rw [token] at h
  split at h
  · rename_i t' hlive
    obtain rfl := Option.some.inj h
    rw [SessionCache.liveToken?, SessionCache.isLive] at hlive
    cases he : (w.cache i).expiresAt with
    | none =>
        rw [he] at hlive
        cases hlive
    | some e =>
        rw [he] at hlive
        obtain ⟨hlt, ht⟩ := Option.ite_none_right_eq_some.mp hlive
        exact ⟨e, of_decide_eq_true hlt, .inl ⟨ht, rfl⟩⟩
  · dsimp only at h
    split at h
    · cases h
    · rename_i t' ht
      split at h
      · cases h
      · rename_i e he
        split at h
        · cases h
        · rename_i hlt
          obtain rfl := Option.some.inj h
          exact ⟨e, Int.not_le.mp hlt, .inr ⟨ht, he⟩⟩

end Tabs

/-- A call that holds on to nothing has not waited. -/
theorem Limiter.Acts.cue_eq_none {endpoint : String} {user : Option String} {purpose : Purpose}
    {i : Start Limiter} {granted : Bool} {l : Limiter}
    (h : Acts endpoint user purpose none i granted l) : i.cue = none := by
  cases h with
  | free hcue hl hleft hgranted => exact hcue
  | held limit hheld hpurpose huses =>
      cases hheld with
      | begins hcue hl => exact hcue
      | resumes hcue hm => cases hm

open Activity

namespace Client

/-! ## Fates -/

/-- The request is handed over as the caller's, with the stamps of where the call began, and with
the token of the session if its route needs one. -/
structure Presented (request : Request) (first i : Start Client) (q : Request) : Prop where
  alike : Request.Alike request q
  stamped : q.Stamped first.state.profile first.state.csrf first.now first.state.serial
  authorized : Route.requiresAuth request.path = true → ∃ t,
    i.state.tabs.LiveToken i.state.own i.now t ∧ q.header? "authorization" = some t.authorization

/-- How far a call has come: it begins, it has waited for a token of its route since it began, or it
has been made. -/
inductive Phase where
  | opening
  | parked (held : String × EndpointLimit) (first : Start Client)
  | made

namespace Phase

/-- The limit that the call holds on to. -/
def held : Phase → Limiter.Memo
  | .parked held _ => some held
  | _ => none

/-- Where the call began. -/
def first (i : Start Client) : Phase → Start Client
  | .parked _ first => first
  | _ => i

/-- How far a call has come that asks for a token, by what it holds on to. -/
def ofHeld (first : Start Client) : Limiter.Memo → Phase
  | some held => .parked held first
  | none => .opening

/-- How far the call has come after a stretch. -/
def next (path : String) (i : Start Client) : Phase → Pause → Phase
  | .made, _ => .made
  | _, .waits (.call _) => .made
  | _, .waits _ => ofHeld i ((i.state.limiter.limit? path).map fun limit => (path, limit))
  | m, _ => m

@[simp] theorem held_ofHeld (first : Start Client) (held : Limiter.Memo) :
    (ofHeld first held).held = held := by
  cases held <;> rfl

theorem ofHeld_ne_made (first : Start Client) (held : Limiter.Memo) :
    ofHeld first held ≠ .made := by
  cases held <;> exact nofun

theorem eq_none_of_ofHeld {first : Start Client} {held : Limiter.Memo}
    (h : ofHeld first held = .opening) : held = none := by
  cases held with
  | none => rfl
  | some held => cases h

end Phase

/-- What becomes of a call in a stretch before it is made: it is handed over, held back once or
refused. It faults where the limiter has left the calendar, and where its failure cannot be
reported. -/
inductive Fate (request : Request) (m : Phase) (i : Start Client) :
    Result (Ending Reply Job) → Prop where
  | handed (q : Request) (h : Presented request (m.first i) i q) :
      Fate request m i (.paused (.waits (.call q)))
  | parked (span : Span) (hfamily : Route.isAuthFamily request.path = true) (hcue : i.cue = none) :
      Fate request m i (.paused (.waits (.sleep span)))
  | limited (wait : Span) (hfamily : Route.isAuthFamily request.path = true) :
      Fate request m i
        (.ended (.answers (.called (.error (classify (.refused (.rateLimited wait)) i.now)))))
  | tokenless (hauth : Route.requiresAuth request.path = true)
      (hnone : (i.state.tabs.token i.state.own i.now).1 = none) :
      Fate request m i
        (.ended (.answers (.called (.error (classify (.refused .missingToken) i.now)))))
  | strained (limit : EndpointLimit) (hfamily : Route.isAuthFamily request.path = true)
      (hheld : Limiter.HeldTo m.held (i.of (·.limiter)) (Route.normalize request.path) limit)
      (h : i.state.limiter.limit? (Route.normalize request.path) = some limit →
        i.state.limiter.Strained (Route.normalize request.path) limit i.now) :
      Fate request m i (.paused .faults)
  | unreported (h : ¬i.state.batcher.Sendable) : Fate request m i (.paused .faults)

/-- A stretch of a call comes to a fate and, if it is the first one, takes a number. Once the call
has been made it waits no more. -/
inductive Vouched (request : Request) (i : Start Client) (res : Result (Ending Reply Job))
    (c : Client) : Phase → Prop where
  | asks {m : Phase} (hphase : m ≠ .made) (hmade : i.isMade = false)
      (hopening : m = .opening → i.cue = none) (hserial : i.cue = none → i.state.serial < c.serial)
      (h : Fate request m i res) : Vouched request i res c m
  | settles (hmade : i.isMade = true) (hres : ∀ w, res ≠ .paused (.waits w)) :
      Vouched request i res c .made

/-- What a stretch of a call that pauses does. -/
def vouch (request : Request) : Pact Phase Client := fun m i p c m' =>
  m' = m.next (Route.normalize request.path) i p ∧
    (p ≠ .drops → Vouched request i (.paused p) c m)

/-- What a stretch of a call that ends does. -/
def Answers (request : Request) (m : Phase) (i : Start Client) (r : CallResult) (c : Client) :
    Prop :=
  Vouched request i (.ended (.answers (.called r))) c m

variable {request q r : Request} {path : String} {m m' : Phase} {first i : Start Client}
  {c c' : Client}

theorem Vouched.same {res : Result (Ending Reply Job)} (h : Vouched request i res c m)
    (hserial : c'.serial = c.serial) : Vouched request i res c' m := by
  cases h with
  | asks hphase hmade hopening hless h => exact .asks hphase hmade hopening (hserial ▸ hless) h
  | settles hmade hres => exact .settles hmade hres

/-! ## The request -/

theorem alike_prepare (c : Client) (request : Request) (now : Instant) :
    Request.Alike request (c.prepare request now).1 := by
  have hsecured := Request.alike_secure (request.stampStart now) c.profile c.csrf now c.serial
  exact ⟨hsecured.method, hsecured.path, hsecured.body⟩

theorem stamped_prepare (c : Client) (request : Request) (now : Instant) :
    (c.prepare request now).1.Stamped c.profile c.csrf now c.serial :=
  Request.stamped_secure _ _ _ _ _

/-- What is prepared for a public route may be handed over. -/
theorem presented_public (hpublic : ¬Route.requiresAuth request.path = true) :
    Presented request first i (first.state.prepare request first.now).1 :=
  ⟨alike_prepare _ _ _, stamped_prepare _ _ _, fun hauth => absurd hauth hpublic⟩

/-- With the token of the session it may be handed over for any route. -/
theorem presented_token {t : BearerToken}
    (ht : (i.state.tabs.token i.state.own i.now).1 = some t) :
    Presented request first i
      ((first.state.prepare request first.now).1.setHeader "authorization" t.authorization) := by
  have halike := alike_prepare first.state request first.now
  refine ⟨⟨halike.method, halike.path, halike.body⟩,
    (stamped_prepare first.state request first.now).setHeader (by decide) _, fun _ => ?_⟩
  refine ⟨t, Tabs.liveToken_of_token ht, ?_⟩
  rw [Request.header?_setHeader, if_pos rfl]

/-! ## A stretch before the call is made -/

/-- The call has not been made, and has taken a number if this is its first stretch. -/
structure Underway (m : Phase) (i : Start Client) (c : Client) : Prop where
  phase : m ≠ .made
  unmade : i.isMade = false
  opening : m = .opening → i.cue = none
  serial : i.cue = none → i.state.serial < c.serial

theorem Underway.asks {res : Result (Ending Reply Job)} (h : Underway m i c)
    (hfate : Fate request m i res) : Vouched request i res c m :=
  .asks h.phase h.unmade h.opening h.serial hfate

theorem Underway.same (h : Underway m i c) (hserial : c'.serial = c.serial) : Underway m i c' :=
  ⟨h.phase, h.unmade, h.opening, hserial ▸ h.serial⟩

theorem Underway.faults (h : Underway m i c) (hfate : Fate request m i (.paused .faults)) :
    vouch request m i .faults c m := by
  refine ⟨?_, fun _ => h.asks hfate⟩
  cases m <;> rfl

/-- Nor has it looked for the token of the session. -/
structure Readied (request r : Request) (m : Phase) (i : Start Client) (c : Client) : Prop
    extends Underway m i c where
  request : r = ((m.first i).state.prepare request (m.first i).now).1
  tabs : c.tabs = i.state.tabs
  own : c.own = i.state.own
  batcher : c.batcher = i.state.batcher

theorem Readied.same (h : Readied request r m i c) (hserial : c'.serial = c.serial)
    (htabs : c'.tabs = c.tabs) (hown : c'.own = c.own) (hbatcher : c'.batcher = c.batcher) :
    Readied request r m i c' :=
  ⟨h.toUnderway.same hserial, h.request, htabs.trans h.tabs, hown.trans h.own,
    hbatcher.trans h.batcher⟩

/-- A call that is refused is not made. -/
structure Refused (request : Request) (e : ApiError) (m : Phase) (i : Start Client) (c : Client) :
    Prop extends Underway m i c where
  fate : Fate request m i (.ended (.answers (.called (.error e))))
  sendable : i.state.batcher.Sendable → c.batcher.Sendable

/-- The refusal is reported, and faults only if that cannot be done. -/
theorem vouches_reject (r : Request) (path : String) (failure : LocalFailure) :
    Triple (vouch request)
      (fun m i c => Refused request (classify (.refused failure) i.now) m i c)
      (do return .error (← Client.reject r path failure)) (Answers request) := by
  refine Triple.bind (triple_reject (P := vouch request)
    (A := fun m i c => Refused request (classify (.refused failure) i.now) m i c)
    (B := fun m i c => Underway m i c ∧
      Fate request m i (.ended (.answers (.called (.error (classify (.refused failure) i.now))))))
    ?_ ?_ ?_ r failure) fun e => triple_pure ?_
  · intro m i c c' h hkept hbatcher
    refine ⟨h.toUnderway.same (congrArg (·.2.2.2) hkept), h.fate, fun hs => ?_⟩
    rw [hbatcher]
    exact h.sendable hs
  · exact fun m i c h hs => h.toUnderway.faults (.unreported fun hs' => hs (h.sendable hs'))
  · exact fun m i c b h => ⟨h.toUnderway.same rfl, h.fate⟩
  · rintro m i c ⟨⟨h, hfate⟩, rfl⟩
    exact h.asks hfate

/-! ## Making the call -/

theorem vouch_of_settles {p : Pause} {l : Limiter} (h : Settles path i l)
    (hp : p = .faults ∨ p = .stays) : vouch request .made i p c .made := by
  refine ⟨rfl, fun _ => .settles h.made ?_⟩
  rcases hp with rfl | rfl <;> exact nofun

theorem vouches_exchange (q : Request) (path : String) : Triple (vouch request)
    (fun m i c => Underway m i c ∧ Presented request (m.first i) i q) (Client.exchange q path)
    (Answers request) := by
  refine triple_made ?_ (fun _ _ => ?_) (fun _ _ _ => vouch_of_settles) fun i a c h => ?_
  · rintro m i c ⟨h, hq⟩
    refine ⟨?_, fun _ => h.asks (.handed q hq)⟩
    cases m <;> rfl
  · exact ⟨rfl, fun hd => absurd rfl hd⟩
  · exact Vouched.settles h.made nofun

theorem sendable_setTabs (c : Client) (w : Tabs) :
    (c.setTabs w).batcher.Sendable ↔ c.batcher.Sendable := by
  unfold setTabs
  dsimp only
  split <;> exact Iff.rfl

theorem serial_setTabs (c : Client) (w : Tabs) : (c.setTabs w).serial = c.serial :=
  congrArg (·.2.2.2) (kept_setTabs c w)

theorem vouches_authorize (r : Request) (started : Instant) :
    Triple (vouch request) (Readied request r)
      (Client.authorize r (Route.normalize request.path) started) (Answers request) := by
  rw [Client.authorize, Route.requiresAuth_normalize]
  refine Triple.ite (fun hauth => ?_) fun hpublic => ?_
  · -- The session is asked for its token in the stretch in which the call is made.
    refine Triple.bind (M := fun m i token c => Underway m i c ∧
      r = ((m.first i).state.prepare request (m.first i).now).1 ∧
      token = (i.state.tabs.token i.state.own i.now).1 ∧
      (i.state.batcher.Sendable → c.batcher.Sendable)) (triple_step fun m i c h => ?_)
        fun token => ?_
    · refine ⟨h.toUnderway.same (serial_setTabs c _), h.request, ?_, fun hs => ?_⟩
      · rw [h.tabs, h.own]
      · rw [sendable_setTabs, h.batcher]
        exact hs
    cases token with
    | none =>
        refine (vouches_reject r _ .missingToken).conseq ?_ fun _ _ _ _ h => h
        rintro m i c ⟨h, -, hnone, hsendable⟩
        exact ⟨h, .tokenless hauth hnone.symm, hsendable⟩
    | some token =>
        refine Triple.bind (M := fun m i _ c => Underway m i c ∧
          Presented request (m.first i) i (r.setHeader "authorization" token.authorization))
          (triple_modify ?_) fun _ => vouches_exchange _ _
        rintro m i c ⟨h, rfl, htoken, -⟩
        exact ⟨h.same rfl, presented_token htoken.symm⟩
  · refine (vouches_exchange r _).conseq ?_ fun _ _ _ _ h => h
    rintro m i c h
    refine ⟨h.toUnderway, ?_⟩
    rw [h.request]
    exact presented_public hpublic

/-! ## Waiting for a token of the route -/

/-- What is known of a call that asks for a token of its route, as it was when the stretch began. -/
structure Persists (first i : Start Client) (c : Client) : Prop where
  start : i.cue = none → i = first
  serial : i.cue = none → i.state.serial < c.serial
  tabs : c.tabs = i.state.tabs
  own : c.own = i.state.own
  batcher : c.batcher = i.state.batcher

theorem vouch_of_acquire {held held' : Limiter.Memo} {p : Pause}
    (hfamily : Route.isAuthFamily request.path = true)
    (hpersists : p ≠ .drops → Persists first i c)
    (h : Awaiting (fun w => ∃ span, w = .sleep span)
      (Limiter.Call.on (Route.normalize request.path) none .acquire).pact held
        (i.of (·.limiter)) p c.limiter held') :
    vouch request (.ofHeld first held) i p c (.ofHeld first held') := by
  obtain ⟨⟨hpact, hw⟩, hafter⟩ := h
  have hunderway : (held = none → i.cue = none) → p ≠ .drops →
      Underway (.ofHeld first held) i c := fun hcue hp =>
    ⟨Phase.ofHeld_ne_made _ _, isMade_of_after hafter,
      fun hopening => hcue (Phase.eq_none_of_ofHeld hopening), (hpersists hp).serial⟩
  cases p with
  | waits w =>
      obtain ⟨span, rfl⟩ := hw w rfl
      obtain ⟨-, hcue, -, rfl⟩ := hpact
      obtain rfl := (hpersists nofun).start hcue
      refine ⟨?_, fun hp => (hunderway (fun _ => hcue) hp).asks (.parked span hfamily hcue)⟩
      cases held <;> rfl
  | faults =>
      obtain ⟨rfl, limit, hheld, hstrained⟩ := hpact
      refine (hunderway (fun hnone => ?_) nofun).faults
        (.strained limit hfamily (by rwa [Phase.held_ofHeld]) fun _ => hstrained)
      cases hheld with
      | begins hcue hl => exact hcue
      | resumes hcue hm =>
          rw [hnone] at hm
          cases hm
  | stays => exact hpact.elim
  | drops =>
      obtain ⟨-, rfl⟩ := hpact
      refine ⟨?_, fun hd => absurd rfl hd⟩
      cases held' <;> rfl

theorem vouches_acquire (hfamily : Route.isAuthFamily request.path = true) :
    Triple (vouch request)
      (fun m i c => m = .opening ∧ i.cue = none ∧ c.limiter = i.state.limiter ∧
        Readied request r m i c)
      (Client.acquire (Route.normalize request.path) none)
      fun m i granted c => Readied request r m i c ∧
        Limiter.Acts (Route.normalize request.path) none .acquire m.held (i.of (·.limiter)) granted
          c.limiter := by
  have hmoves : Moves (fun w => ∃ span, w = .sleep span)
      (Limiter.Spared (Route.normalize request.path) False)
      (Limiter.acquire (Route.normalize request.path) none) := Limiter.moves_acquire False.elim
  have hacquire := Limiter.triple_acquire.awaiting hmoves Limiter.Spared.refl
  refine ⟨fun m first c h => ?_⟩
  obtain ⟨rfl, hcue, hlimiter, hr⟩ := h
  have hbegins : After (fun w => ∃ span, w = .sleep span) (first.of (·.limiter)) := fun q hq => by
    rw [show first.cue = some q from hq] at hcue
    cases hcue
  unfold Client.acquire
  refine ((Triple.within (F := Persists first) ?_ ?_ ?_
    (fun held i p c held' hp h => vouch_of_acquire hfamily hp h) hacquire).meets .opening first c
      ⟨none, rfl, ⟨⟨rfl, hcue, hlimiter⟩, hbegins⟩, ?_⟩).mono (fun _ _ _ _ _ h => h) ?_
  · exact fun c l => rfl
  · exact fun i c l h => ⟨h.start, h.serial, h.tabs, h.own, h.batcher⟩
  · exact fun i hi => ⟨fun hn => absurd hn hi, fun hn => absurd hn hi, rfl, rfl, rfl⟩
  · exact ⟨fun _ => rfl, hr.serial, hr.tabs, hr.own, hr.batcher⟩
  rintro m i granted c ⟨held, rfl, ⟨hacts, hafter⟩, h⟩
  refine ⟨⟨⟨Phase.ofHeld_ne_made _ _, isMade_of_after hafter, fun hopening => ?_, h.serial⟩, ?_,
    h.tabs, h.own, h.batcher⟩, by rwa [Phase.held_ofHeld]⟩
  · rw [Phase.eq_none_of_ofHeld hopening] at hacts
    exact hacts.cue_eq_none
  · cases held with
    | none =>
        obtain rfl := h.start hacts.cue_eq_none
        exact hr.request
    | some held => exact hr.request

theorem vouches_refusal (hfamily : Route.isAuthFamily request.path = true) (r r' : Request) :
    Triple (vouch request)
      (fun m i c => Readied request r m i c ∧
        Limiter.Acts (Route.normalize request.path) none .acquire m.held (i.of (·.limiter)) false
          c.limiter)
      (do
        let wait ← Client.remainingWait (Route.normalize request.path) none
        return .error (← Client.reject r' (Route.normalize request.path) (.rateLimited wait)))
      (Answers request) := by
  refine Triple.bind (M := fun m i _ c => Readied request r m i c)
    (triple_attempt_of_error ?_ ?_) fun wait => ?_
  · rintro m i c f ⟨h, hacts⟩ hf
    obtain ⟨limit, hheld, hstrained⟩ := strained_of_remainingWait hacts (error_of_bind hf)
    exact h.toUnderway.faults (.strained limit hfamily hheld hstrained)
  · rintro m i c d ⟨h, -⟩ hd
    obtain ⟨d', -, rfl⟩ := ok_of_bind hd
    exact h.same rfl rfl rfl rfl
  · refine (vouches_reject r' _ (.rateLimited wait)).conseq ?_ fun _ _ _ _ h => h
    exact fun m i c h => ⟨h.toUnderway, .limited wait hfamily, fun hs => h.batcher ▸ hs⟩

/-! ## The whole call -/

/-- A call begins, whatever has been counted of it. -/
structure Commences (m : Phase) (i : Start Client) (c : Client) : Prop where
  phase : m = .opening
  cue : i.cue = none
  limiter : c.limiter = i.state.limiter
  prepare : ∀ request now, (c.prepare request now).1 = (i.state.prepare request now).1
  serial : c.serial = i.state.serial
  tabs : c.tabs = i.state.tabs
  own : c.own = i.state.own
  batcher : c.batcher = i.state.batcher

theorem Commences.readied (h : Commences m i c) :
    Readied request (c.prepare request i.now).1 m i (c.prepare request i.now).2 := by
  obtain ⟨rfl, hcue, -, hprepare, hserial, htabs, hown, hbatcher⟩ := h
  refine ⟨⟨nofun, ?_, fun _ => hcue, fun _ => ?_⟩, hprepare request i.now, htabs, hown, hbatcher⟩
  · rw [Start.isMade, hcue]
    rfl
  · rw [← hserial]
    exact Nat.lt_succ_self _

theorem vouches_dispatch (request : Request) :
    Triple (vouch request) Commences (Client.dispatch request) (Answers request) := by
  refine Triple.bind (M := fun m i _ c => Commences m i c) (triple_now fun _ _ _ h => h)
    fun started => ?_
  refine Triple.bind (M := fun m i r c => m = .opening ∧ i.cue = none ∧
    c.limiter = i.state.limiter ∧ Readied request r m i c) (triple_step fun m i c h => ?_)
      fun r => ?_
  · exact ⟨h.phase, h.cue, h.limiter, h.readied⟩
  rw [Route.isAuthFamily_normalize]
  refine Triple.ite (fun hfamily => ?_) fun _ =>
    (vouches_authorize r started).conseq (fun _ _ _ h => h.2.2.2) fun _ _ _ _ h => h
  refine Triple.bind (vouches_acquire hfamily) fun granted => ?_
  refine Triple.ite (fun _ => ?_) fun hrefused => ?_
  · exact (vouches_authorize r started).conseq (fun _ _ _ h => h.1) fun _ _ _ _ h => h
  · obtain rfl := Bool.eq_false_iff.mpr hrefused
    exact vouches_refusal hfamily r r

/-- Every stretch of a call comes to a fate, or settles a call that was made. -/
theorem vouches_send (request : Request) :
    Triple (vouch request) (fun m i c => m = .opening ∧ i.cue = none ∧ c = i.state)
      (Client.send request) (Answers request) := by
  refine triple_counted ?_ (fun _ _ _ _ _ h hkept => Vouched.same h (congrArg (·.2.2.2) hkept))
    (vouches_dispatch request)
  rintro m i c ⟨hm, hcue, rfl⟩
  exact ⟨hm, hcue, rfl, fun _ _ => rfl, rfl, rfl, rfl, rfl⟩

end Client

end ClientSession
