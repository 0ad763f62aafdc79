import ClientSession.Proofs.Client.Throttle

/-!
# Admission

A call of the sign-in family is charged to the limit of its route, in all courses of a client:
it is made only with a token, and where there is none it is turned away. Other work may come between,
such as signing out or a check of the token.

- `Client.Charged`: what a limit does to a call.
- `Client.passage_of_mem`: what becomes of a call in each moment of a course.
- `Client.throttles_of_course`: calls are charged in every scene, also those that have waited.
-/

namespace ClientSession

open Activity

namespace Client

variable {path : String} {limit : EndpointLimit} {m : Stage} {i : Start Client} {c : Client}

/-! ## What is charged -/

/-- The call is held back once, or refused with an error of its limit. -/
def TurnedAway (i : Start Client) (res : Result (Ending Reply Job)) : Prop :=
  (i.cue = none ∧ ∃ span, res = .paused (.waits (.sleep span))) ∨
    ∃ e : ApiError, res = .ended (.answers (.called (.error e))) ∧ e.kind = .rateLimit ∧
      e.status = .rateLimited

/-- The bucket of the route has no token when the stretch begins. -/
def Exhausted (path : String) (limit : EndpointLimit) (i : Start Client) : Prop :=
  (Bucket.ready (i.state.limiter.buckets.find? path) limit i.now).tokens = 0

/-- A call is made only with a token. Where there is none it is turned away, unless the calendar
ends before the bucket is refilled or before its failure can be reported. -/
structure Charged (path : String) (limit : EndpointLimit) (i : Start Client)
    (res : Result (Ending Reply Job)) (l : Limiter) : Prop where
  made : ∀ q, res = .paused (.waits (.call q)) →
    i.state.limiter.Uses path limit i.now true true l
  unmade : Exhausted path limit i → ∀ q, res ≠ .paused (.waits (.call q))
  told : Exhausted path limit i → ¬i.state.limiter.Strained path limit i.now →
    i.state.batcher.Sendable → TurnedAway i res

theorem not_uses_of_exhausted {l : Limiter} (h : Exhausted path limit i) :
    ¬i.state.limiter.Uses path limit i.now true true l := fun huses => by
  obtain ⟨-, htoken⟩ := Bucket.draw_fst_iff.mp huses.granted_eq.symm
  exact Nat.ne_of_gt htoken h

/-- A call that finds no token is turned away, if it does not fault. -/
theorem Verdict.turnedAway {res : Result (Ending Reply Job)} {l : Limiter}
    (h : Verdict path limit i res l) (hempty : Exhausted path limit i)
    (hres : res ≠ .paused .faults) : TurnedAway i res := by
  cases h with
  | admitted hadmits huses => exact absurd huses (not_uses_of_exhausted hempty)
  | held span hcue huses => exact .inl ⟨hcue, span, rfl⟩
  | refused wait huses => exact .inr ⟨_, rfl, rfl, rfl⟩
  | strained hs => exact absurd rfl hres
  | unreported hs => exact absurd rfl hres

theorem Verdict.charged {res : Result (Ending Reply Job)} {l : Limiter}
    (h : Verdict path limit i res l) : Charged path limit i res l := by
  have hmade : ∀ q, res = .paused (.waits (.call q)) →
      i.state.limiter.Uses path limit i.now true true l := by
    intro q hq
    cases h with
    | admitted hres huses => exact huses
    | _ => cases hq
  refine ⟨hmade, fun hempty q hq => not_uses_of_exhausted hempty (hmade q hq),
    fun hempty hstrained hsendable => h.turnedAway hempty fun hres => ?_⟩
  cases h with
  | admitted hadmits huses => exact not_uses_of_exhausted hempty huses
  | held span hcue huses => cases hres
  | refused wait huses => cases hres
  | strained hs => exact hstrained hs
  | unreported hs =>
      obtain ⟨l', huses⟩ := hs hsendable
      exact not_uses_of_exhausted hempty huses

/-! ## Courses -/

/-- The work is a call to the path. -/
def sendsTo (path : String) : Work Operation Job → Bool
  | .call (.send r) => decide (Route.normalize r.path = path)
  | _ => false

/-- What the work of a call that ends does. -/
def Concluded (path : String) (m : Stage) (i : Start Client) (e : Ending Reply Job) (c : Client) :
    Prop :=
  ∃ r, e = .answers (.called r) ∧ Concludes path m i r c

theorem triple_carryOut (hfamily : Route.isAuthFamily path = true) {work : Work Operation Job}
    (h : sendsTo path work = true) :
    Triple (throttle path) (fun m i c => m = .asking none ∧ i.cue = none ∧ c = i.state)
      (workplace.carryOut work) (Concluded path) := by
  cases work with
  | job j => cases h
  | call k =>
      cases k with
      | send r =>
          have hsend := triple_send (of_decide_eq_true h) hfamily
          refine Triple.map (Triple.map (hsend.conseq ?_ fun _ _ r _ h => ⟨r, rfl, h⟩))
          rintro m i c ⟨hm, hcue, rfl⟩
          exact ⟨hm, hcue, rfl, rfl⟩
      | _ => cases h

/-- The rules of calls to the path. -/
def throttling (path : String) : Rules Stage Client Operation Reply Job :=
  .only (sendsTo path) (.asking none) (throttle path) (Concluded path)

theorem throttling_keptBy (hfamily : Route.isAuthFamily path = true) :
    (throttling path).KeptBy workplace :=
  Rules.only_keptBy (fun _ _ => ⟨rfl, rfl, rfl⟩) (fun _ _ => ⟨rfl, rfl⟩) fun _ h =>
    triple_carryOut hfamily h

/-- What becomes of a call in a stretch: it asks for a token, or settles a call that was made and
waits no more. -/
inductive Passage (path : String) (limit : EndpointLimit) (i : Start Client)
    (res : Result (Ending Reply Job)) (l : Limiter) : Prop where
  | asks (hmade : i.isMade = false) (hverdict : Verdict path limit i res l)
  | settles (h : Settles path i l) (hres : ∀ w, res ≠ .paused (.waits w))

/-- The limit that a call holds on to is the one of its route. -/
def Stage.Holds (path : String) (limit : EndpointLimit) (m : Stage) : Prop :=
  ∀ limit', m = .asking (some (path, limit')) → limit' = limit

section Passage

variable (hstands : i.state.limiter.limit? path = some limit) (hm : m.Holds path limit)

include hstands hm

theorem passage_of_asks {held : Limiter.Memo} {res : Result (Ending Reply Job)} {l : Limiter}
    (hheld : m = .asking held) (hmade : i.isMade = false) (h : Asks path held i res l) :
    Passage path limit i res l := by
  refine .asks hmade ?_
  cases h with
  | free hcue hl =>
      rw [hstands] at hl
      cases hl
  | under limit' hheldTo hverdict =>
      have hlimit : limit' = limit := by
        cases hheldTo with
        | begins hcue hl => exact Option.some.inj (Eq.trans (Eq.symm hl) hstands)
        | resumes hcue hmemo => exact hm limit' (hmemo ▸ hheld)
      subst hlimit
      exact hverdict hstands

theorem passage_of_concluded {e : Ending Reply Job} (h : Concluded path m i e c) :
    Passage path limit i (.ended e) c.limiter := by
  obtain ⟨r, rfl, h⟩ := h
  cases m with
  | asking held => exact passage_of_asks hstands hm rfl h.1 h.2
  | made => exact .settles h nofun

theorem passage_of_throttle {p : Pause} {m' : Stage} (h : throttle path m i p c m')
    (hp : p ≠ .drops) : Passage path limit i (.paused p) c.limiter := by
  obtain ⟨-, h⟩ := h
  have hsettles : ∀ {q : Pause}, (∀ w, q ≠ .waits w) →
      ∀ w, (.paused q : Result (Ending Reply Job)) ≠ .paused (.waits w) :=
    fun hq w heq => hq w (Result.paused.inj heq)
  cases p with
  | drops => exact absurd rfl hp
  | waits w =>
      cases m with
      | asking held => exact passage_of_asks hstands hm rfl h.1 h.2
      | made => exact .settles h.1 (hsettles h.2)
  | stays =>
      cases m with
      | asking held => exact passage_of_asks hstands hm rfl h.1 h.2
      | made => exact .settles h.1 (hsettles h.2)
  | faults =>
      cases m with
      | asking held => exact passage_of_asks hstands hm rfl h.1 h.2
      | made => exact .settles h.1 (hsettles h.2)

theorem passage_of_meets {r : Run Client (Ending Reply Job)}
    (h : r.Meets (throttle path) (Concluded path) m i) :
    Passage path limit i r.result r.state.limiter := by
  cases r with
  | done c e => exact passage_of_concluded hstands hm h
  | fault c f => exact passage_of_throttle hstands hm h nofun
  | stay c => exact passage_of_throttle hstands hm h nofun
  | wait c w drop resume =>
      obtain ⟨m', hp, -⟩ := h
      exact passage_of_throttle hstands hm hp nofun

end Passage

/-- What becomes of a call that begins. -/
theorem passage_of_begin (hfamily : Route.isAuthFamily path = true) {work : Work Operation Job}
    (hsends : sendsTo path work = true) (hstands : c.limiter.limit? path = some limit)
    (now : Instant) : Passage path limit ⟨none, now, c⟩ (workplace.carryOut work now c).result
      (workplace.carryOut work now c).state.limiter :=
  passage_of_meets (i := ⟨none, now, c⟩) (m := .asking none) hstands nofun
    ((triple_carryOut hfamily hsends).meets _ ⟨none, now, c⟩ c ⟨rfl, rfl, rfl⟩)

/-- What a call holds on to is a limit that has stood. -/
def Stood (ms : List Moment) (m : Stage) : Prop :=
  ∀ endpoint limit, m = .asking (some (endpoint, limit)) →
    ∃ y ∈ ms, y.start.state.limiter.limit? endpoint = some limit

variable {ms : List Moment} {s : Scene} {x : Moment}

theorem Stood.snoc (h : Stood ms m) (x : Moment) : Stood (ms ++ [x]) m := by
  intro endpoint limit hm
  obtain ⟨y, hy, hl⟩ := h endpoint limit hm
  exact ⟨y, List.mem_append_left _ hy, hl⟩

theorem Stood.next (h : Stood ms m) (x : Moment) (p : Pause) :
    Stood (ms ++ [x]) (m.next path x.start p) := by
  unfold Stage.next
  split
  · exact nofun
  · intro endpoint limit hm
    obtain ⟨limit', hlimit, hpair⟩ := Option.map_eq_some_iff.mp (Stage.asking.inj hm)
    cases hpair
    exact ⟨x, by simp, hlimit⟩
  · exact h.snoc x

theorem course_throttling (hfamily : Route.isAuthFamily path = true)
    (h : Course (scene c) ms s) :
    (∀ before x after, ms = before ++ x :: after →
      ∃ m m', Stood before m ∧ (throttling path).Keeps m m' x) ∧
        (throttling path).HeldIn (fun _ => Stood ms) s := by
  refine (throttling_keptBy hfamily).course (R := fun ms _ => Stood ms) (fun _ _ => nofun)
    (fun _ x _ _ hm => hm.snoc x) (fun ms x m p m' hm hp hpact => ?_) (.idle c) h
  cases hsel : sendsTo path x.work with
  | true =>
      rw [(hpact.1 hsel).1]
      exact hm.next x p
  | false =>
      rw [hpact.2 hsel]
      exact hm.snoc x

/-- In a course a limit stands from first to last. -/
theorem limit?_of_course (h : Course (scene c) ms s) (endpoint : String) :
    s.state.limiter.limit? endpoint = c.limiter.limit? endpoint ∧
      ∀ x ∈ ms, x.start.state.limiter.limit? endpoint = c.limiter.limit? endpoint := by
  obtain ⟨hlast, hall⟩ := limits_of_course h
  refine ⟨?_, fun x hx => ?_⟩
  · rw [Limiter.limit?, hlast, ← Limiter.limit?]
  · rw [Limiter.limit?, hall x hx, ← Limiter.limit?]

section Course

variable (h : Course (scene c) ms s) (hfamily : Route.isAuthFamily path = true)
  (hlimit : c.limiter.limit? path = some limit)

include h hfamily hlimit

omit hfamily in
theorem Stood.holds {before : List Moment} (hm : Stood before m) (hbefore : ∀ y ∈ before, y ∈ ms) :
    m.Holds path limit := by
  intro limit' heq
  obtain ⟨y, hy, hl⟩ := hm path limit' heq
  rw [(limit?_of_course h path).2 y (hbefore y hy), hlimit] at hl
  exact (Option.some.inj hl).symm

/-- What becomes of a call in a moment, unless it is dropped. -/
theorem passage_of_mem (hx : x ∈ ms) (hsends : sendsTo path x.work = true)
    (hd : x.result ≠ .paused .drops) :
    Passage path limit x.start x.result x.left.limiter := by
  have hstands := ((limit?_of_course h path).2 x hx).trans hlimit
  obtain ⟨before, after, heq⟩ := List.append_of_mem hx
  obtain ⟨m, m', hstood, hk⟩ := (course_throttling hfamily h).1 before x after heq
  have hm := hstood.holds h hlimit fun y hy => by
    rw [heq]
    exact List.mem_append_left _ hy
  unfold Rules.Keeps at hk
  cases hresult : x.result with
  | ended e =>
      rw [hresult] at hk
      exact passage_of_concluded hstands hm (hk.1 hsends)
  | paused p =>
      rw [hresult] at hk hd
      exact passage_of_throttle hstands hm (hk.1 hsends) fun hp => hd (congrArg _ hp)

end Course

/-- Calls to the path are throttled in the scene: those that begin, and those that wait. -/
structure Throttles (s : Scene) (path : String) (limit : EndpointLimit) : Prop where
  begins : ∀ r now, Route.normalize r.path = path →
    Charged path limit ⟨none, now, s.state⟩
      (workplace.carryOut (.call (.send r)) now s.state).result
      (workplace.carryOut (.call (.send r)) now s.state).state.limiter
  goesOn : ∀ f ∈ s.flights, sendsTo path f.work = true → ∀ y, f.waiting = some y →
    y.wait.isCall = false → ∀ a now,
      Charged path limit ⟨some ⟨y.wait, a⟩, now, s.state⟩ (y.resume a now s.state).result
        (y.resume a now s.state).state.limiter
  settles : ∀ f ∈ s.flights, sendsTo path f.work = true → ∀ y, f.waiting = some y →
    y.wait.isCall = true → ∀ a now w, (y.resume a now s.state).result ≠ .paused (.waits w)

theorem throttles_of_course (h : Course (scene c) ms s) (hfamily : Route.isAuthFamily path = true)
    (hlimit : c.limiter.limit? path = some limit) : Throttles s path limit := by
  have hstands := (limit?_of_course h path).1.trans hlimit
  have hflight : ∀ f ∈ s.flights, sendsTo path f.work = true → ∀ y, f.waiting = some y →
      ∀ a now, Passage path limit ⟨some ⟨y.wait, a⟩, now, s.state⟩ (y.resume a now s.state).result
        (y.resume a now s.state).state.limiter := by
    intro f hf hsends y hy a now
    obtain ⟨m, hstood, hawaits⟩ := (course_throttling hfamily h).2 f hf y hy
    have hm := hstood.holds h hlimit fun y hy => hy
    refine passage_of_meets (m := m) hstands hm ((hawaits.meets a now s.state).mono ?_ ?_)
    · exact fun m i p s m' hpact => hpact.1 hsends
    · exact fun m i e s hout => hout hsends
  refine ⟨fun r now hr => ?_, fun f hf hsends y hy hcall a now => ?_,
    fun f hf hsends y hy hcall a now w => ?_⟩
  · have hsends : sendsTo path (.call (.send r)) = true := decide_eq_true hr
    cases passage_of_begin hfamily hsends hstands now with
    | asks hmade hverdict => exact hverdict.charged
    | settles hsettles hres => exact absurd hsettles.made Bool.false_ne_true
  · cases hflight f hf hsends y hy a now with
    | asks hmade hverdict => exact hverdict.charged
    | settles hsettles hres => exact absurd (hcall.symm.trans hsettles.made) Bool.false_ne_true
  · cases hflight f hf hsends y hy a now with
    | asks hmade hverdict => exact absurd (hmade.symm.trans hcall) Bool.false_ne_true
    | settles hsettles hres => exact hres w

end Client

end ClientSession
