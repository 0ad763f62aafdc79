import ClientSession.Proofs.Client.Admission
import ClientSession.Proofs.Flights

/-!
# Throughput

Calls of the sign-in family get through as the windows of their route allow, whatever spellings of
its path they use, and however they and their waits are interleaved with each other and with work
that spares the bucket of the route. A call that is turned away has not been made.

- `Client.used_of_course`: the bucket of the route is the one that the calls have left.
- `Client.course_paced`: how many calls get through, and what becomes of the others.
-/

namespace ClientSession

open Activity

theorem Draw.exists_beginAt (ds : List Draw) : ∃ start, Draw.BeginAt start ds := by
  cases ds with
  | nil => exact ⟨⟨0⟩, nofun⟩
  | cons d ds => exact ⟨d.reading, fun d' hd => congrArg Draw.reading (Option.some.inj hd).symm⟩

/-- While the clock does not go back, the windows of the uses are those of their readings. -/
theorem Draw.Metered.window_le {l : EndpointLimit} {start : Instant} {ds : List Draw}
    (h : Metered l start ds) (hstart : BeginAt start ds)
    (hclock : ds.Pairwise fun d d' => d.reading ≤ d'.reading) (k : Int) :
    (ds.countP fun d => d.granted && decide (l.window start d.reading = k)) ≤ l.capacity := by
  have htimed : timed start ds = ds := timed_eq hclock (le_reading_of_beginAt hstart hclock)
  have hwindow := h.grantsIn_le k
  rw [EndpointLimit.grantsIn, htimed] at hwindow
  exact hwindow

namespace Client

/-- A call to the path asks for a token in the moment. -/
def asksToken (path : String) (x : Moment) : Bool :=
  sendsTo path x.work && !x.start.isMade &&
    match x.result with
    | .paused .drops => false
    | _ => true

/-- A call to the path is made in the moment. -/
def reaches (path : String) (x : Moment) : Bool := sendsTo path x.work && x.waitsFor Wait.isCall

/-- The use of the bucket of the path in a moment, if it is one. -/
def draw? (path : String) (x : Moment) : Option Draw :=
  if asksToken path x then some ⟨x.start.now, true, admits x.result⟩ else none

/-- The uses of the bucket of the path in a course. -/
def drawsOf (path : String) (ms : List Moment) : List Draw := ms.filterMap (draw? path)

variable {path : String} {limit : EndpointLimit} {c : Client} {ms : List Moment} {s : Scene}
  {x : Moment}

theorem asksToken_iff : asksToken path x = true ↔
    sendsTo path x.work = true ∧ x.start.isMade = false ∧ x.result ≠ .paused .drops := by
  rw [asksToken, Bool.and_eq_true, Bool.and_eq_true, Bool.not_eq_true', and_assoc]
  refine and_congr_right fun _ => and_congr_right fun _ => ?_
  cases x.result with
  | ended e => simp
  | paused p => cases p <;> simp

theorem isCall_of_sendsTo {work : Work Operation Job} (h : sendsTo path work = true) :
    work.isCall = true := by
  cases work with
  | call k => rfl
  | job j => cases h

/-- A verdict that does not fault is a use of the bucket, and tells whether it gave a token. -/
theorem Verdict.uses {i : Start Client} {res : Result (Ending Reply Job)} {l : Limiter}
    (h : Verdict path limit i res l) (hres : res ≠ .paused .faults) :
    i.state.limiter.Uses path limit i.now true (admits res) l := by
  cases h with
  | admitted hadmits huses => exact hadmits.symm ▸ huses
  | held span hcue huses => exact huses
  | refused wait huses => exact huses
  | strained h => exact absurd rfl hres
  | unreported h => exact absurd rfl hres

section Course

variable (h : Course (scene c) ms s) (hfamily : Route.isAuthFamily path = true)
  (hlimit : c.limiter.limit? path = some limit)

include h hfamily hlimit

theorem verdict_of_mem (hx : x ∈ ms) (ha : asksToken path x = true) :
    Verdict path limit x.start x.result x.left.limiter := by
  obtain ⟨hsends, hmade, hd⟩ := asksToken_iff.mp ha
  cases passage_of_mem h hfamily hlimit hx hsends hd with
  | asks hmade' hverdict => exact hverdict
  | settles hsettles hres => exact absurd (hmade.symm.trans hsettles.made) Bool.false_ne_true

/-- A call that was made waits no more. -/
theorem not_waits_of_mem (hx : x ∈ ms) (hsends : sendsTo path x.work = true)
    (hmade : x.start.isMade = true) : ∀ w, x.result ≠ .paused (.waits w) := by
  intro w hw
  cases passage_of_mem h hfamily hlimit hx hsends (by rw [hw]; nofun) with
  | asks hmade' hverdict => exact absurd (hmade'.symm.trans hmade) Bool.false_ne_true
  | settles hsettles hres => exact hres w hw

omit hlimit in
theorem dropped_of_mem (hx : x ∈ ms) (hsends : sendsTo path x.work = true)
    (hd : x.result = .paused .drops) : x.left.limiter = x.start.state.limiter := by
  obtain ⟨before, after, heq⟩ := List.append_of_mem hx
  obtain ⟨m, m', -, hk⟩ := (course_throttling hfamily h).1 before x after heq
  rw [Rules.Keeps, hd] at hk
  exact (hk.1 hsends).2

/-- A moment is a use of the bucket of the path, or leaves it alone. -/
theorem draw_of_mem (hx : x ∈ ms) (hspares : sendsTo path x.work = true ∨ SparedBy path x.work) :
    (∃ d, draw? path x = some d ∧
      x.start.state.limiter.Uses path limit d.reading d.asks d.granted x.left.limiter) ∨
    draw? path x = none ∧
      x.left.limiter.buckets.find? path = x.start.state.limiter.buckets.find? path := by
  by_cases ha : asksToken path x = true
  · have hverdict := verdict_of_mem h hfamily hlimit hx ha
    have hcall := isCall_of_sendsTo (asksToken_iff.mp ha).1
    exact .inl ⟨_, if_pos ha, hverdict.uses (h.not_faults hx hcall)⟩
  · refine .inr ⟨if_neg ha, ?_⟩
    by_cases hsends : sendsTo path x.work = true
    · by_cases hd : x.result = .paused .drops
      · rw [dropped_of_mem h hfamily hx hsends hd]
      · have hmade : x.start.isMade = true := by
          by_contra hmade
          exact ha (asksToken_iff.mpr ⟨hsends, Bool.eq_false_iff.mpr hmade, hd⟩)
        cases passage_of_mem h hfamily hlimit hx hsends hd with
        | asks hmade' hverdict => exact absurd (hmade'.symm.trans hmade) Bool.false_ne_true
        | settles hsettles hres => exact hsettles.spared.bucket trivial
    · exact (spared_of_mem h hx path).bucket (hspares.resolve_left hsends)

/-- A call that is made has been given a token. -/
theorem draw?_of_reaches (hx : x ∈ ms) (hr : reaches path x = true) :
    draw? path x = some ⟨x.start.now, true, true⟩ := by
  obtain ⟨hsends, hwaits⟩ := Bool.and_eq_true_iff.mp hr
  obtain ⟨w, hresult, hcall⟩ := Moment.waitsFor_iff.mp hwaits
  have hmade : x.start.isMade = false := by
    refine Bool.eq_false_iff.mpr fun hmade => ?_
    exact not_waits_of_mem h hfamily hlimit hx hsends hmade w hresult
  have ha : asksToken path x = true := asksToken_iff.mpr ⟨hsends, hmade, by rw [hresult]; nofun⟩
  rw [draw?, if_pos ha, hresult]
  cases w with
  | call q => rfl
  | _ => cases hcall

theorem countP_reaches_le (p : Instant → Bool) :
    (ms.countP fun x => reaches path x && p x.start.now) ≤
      (drawsOf path ms).countP fun d => d.granted && p d.reading := by
  rw [drawsOf, List.countP_filterMap]
  refine List.countP_mono_left fun x hx hp => ?_
  obtain ⟨hr, hp⟩ := Bool.and_eq_true_iff.mp hp
  rw [draw?_of_reaches h hfamily hlimit hx hr]
  exact hp

end Course

theorem draws_sorted (h : ms.Pairwise fun x y => x.start.now ≤ y.start.now) :
    (drawsOf path ms).Pairwise fun d d' => d.reading ≤ d'.reading := by
  have hreading : ∀ {x : Moment} {d : Draw}, draw? path x = some d → d.reading = x.start.now := by
    intro x d hd
    obtain ⟨-, hd⟩ := Option.ite_none_right_eq_some.mp hd
    exact congrArg Draw.reading (Option.some.inj hd).symm
  refine h.filterMap _ fun x y hxy d hd d' hd' => ?_
  rw [hreading hd, hreading hd']
  exact hxy

/-- The bucket of the path is the one that the calls have left. -/
theorem used_of_course (h : Course (scene c) ms s) (hfamily : Route.isAuthFamily path = true)
    (hlimit : c.limiter.limit? path = some limit) (hnew : c.limiter.buckets.find? path = none)
    (hspares : ∀ x ∈ ms, sendsTo path x.work = true ∨ SparedBy path x.work) :
    Bucket.Used limit (drawsOf path ms) (s.state.limiter.buckets.find? path) := by
  induction h with
  | nil =>
      show Bucket.Used limit [] (c.limiter.buckets.find? path)
      rw [hnew]
      exact .missing
  | @snoc ms t x hbefore hx ih =>
      have hused := ih fun y hy => hspares y (List.mem_append_left _ hy)
      rw [← hx.start_state] at hused
      have hmem : x ∈ ms ++ [x] := List.mem_append_right _ (List.mem_singleton.mpr rfl)
      rw [drawsOf, List.filterMap_append, Step.limiter_eq hx]
      rcases draw_of_mem (hbefore.snoc hx) hfamily hlimit hmem (hspares x hmem) with
        ⟨d, hd, huses⟩ | ⟨hd, hsame⟩
      · rw [List.filterMap_cons, hd]
        exact huses.used hused
      · rw [List.filterMap_cons, hd, hsame]
        exact (List.append_nil _).symm ▸ hused

/-- Calls to a path are charged to its limit. One that finds no token is turned away, and has
not been made. -/
structure Enforced (path : String) (limit : EndpointLimit) (ms : List Moment) : Prop where
  charged : ∀ x ∈ ms, asksToken path x = true →
    Charged path limit x.start x.result x.left.limiter
  turnedAway : ∀ before x after, ms = before ++ x :: after → asksToken path x = true →
    Exhausted path limit x.start → TurnedAway x.start x.result ∧
      ∀ y ∈ before, y.number = x.number → reaches path y = false

theorem enforced_of_course (h : Course (scene c) ms s) (hfamily : Route.isAuthFamily path = true)
    (hlimit : c.limiter.limit? path = some limit) : Enforced path limit ms := by
  refine ⟨fun x hx ha => (verdict_of_mem h hfamily hlimit hx ha).charged, ?_⟩
  rintro before x after rfl ha hempty
  have hmem : x ∈ before ++ x :: after := List.mem_append_right _ (List.mem_cons_self ..)
  obtain ⟨hsends, hmade, hd⟩ := asksToken_iff.mp ha
  have hverdict := verdict_of_mem h hfamily hlimit hmem ha
  refine ⟨hverdict.turnedAway hempty (h.not_faults hmem (isCall_of_sendsTo hsends)), ?_⟩
  intro y hy hn
  -- Had the call been made, it would go on with the answer.
  have hnot : y.waitsFor Wait.isCall = false := h.not_waitsFor (fun _ => rfl)
    (fun z hz => not_waits_of_mem h hfamily hlimit (List.mem_append_left _ hz)) hsends hmade hd
    y hy hn
  rw [reaches, hnot, Bool.and_false]

/-- At most twice the capacity of the calls to a path are made in a span as long as an interval, and
at most the capacity in one window of the bucket. -/
structure Paced (path : String) (limit : EndpointLimit) (ms : List Moment) : Prop extends
    Enforced path limit ms where
  inSpan : ∀ t : Instant, (ms.countP fun x => reaches path x &&
    decide (t ≤ x.start.now ∧ x.start.now.nanos < t.nanos + limit.interval.nanos)) ≤
      2 * limit.capacity
  inWindow : ∀ start, Draw.BeginAt start (drawsOf path ms) → ∀ k,
    (ms.countP fun x => reaches path x && decide (limit.window start x.start.now = k)) ≤
      limit.capacity

/-- Calls to a path are paced by its limit, while other work spares the bucket and the clock does
not go back; and so it goes on. -/
theorem course_paced (h : Course (scene c) ms s) (hfamily : Route.isAuthFamily path = true)
    (hlimit : c.limiter.limit? path = some limit) (hl : 0 < limit.intervalMs)
    (hnew : c.limiter.buckets.find? path = none)
    (hspares : ∀ x ∈ ms, sendsTo path x.work = true ∨ SparedBy path x.work)
    (hclock : ms.Pairwise fun x y => x.start.now ≤ y.start.now) :
    Paced path limit ms ∧ Throttles s path limit := by
  have hused := used_of_course h hfamily hlimit hnew hspares
  have hsorted : (drawsOf path ms).Pairwise fun d d' => d.reading ≤ d'.reading :=
    draws_sorted hclock
  refine ⟨⟨enforced_of_course h hfamily hlimit, fun t => ?_, fun start hstart k => ?_⟩,
    throttles_of_course h hfamily hlimit⟩
  · obtain ⟨start, hstart⟩ := Draw.exists_beginAt (drawsOf path ms)
    refine le_trans (countP_reaches_le h hfamily hlimit fun now =>
      decide (t ≤ now ∧ now.nanos < t.nanos + limit.interval.nanos)) ?_
    exact (hused.metered hl hstart).span_le hl hstart hsorted t
  · refine le_trans (countP_reaches_le h hfamily hlimit fun now =>
      decide (limit.window start now = k)) ?_
    exact (hused.metered hl hstart).window_le hstart hsorted k

/-- The plain client with a limit on calls to sign in, and on nothing else. -/
def guarded (limit : EndpointLimit) : Client :=
  { plain with limiter := Limiter.empty.configure "/auth/login" limit }

/-- Three calls to one route in three spellings, of which the last two have to wait. -/
def threeSpellings : Script :=
  [(⟨1748779200000000000⟩, .ask (.send (.new .post "/auth/login?from=a"))),
    (⟨1748779200400000000⟩, .ask (.send (.new .post "auth/login//"))),
    (⟨1748779200500000000⟩, .ask (.send (.new .post "/auth/login#top"))),
    (⟨1748779201000000000⟩, .reply 1 (Wait.answer (.ok ⟨200, Table.empty, ""⟩)
      (.error .loginRequired))),
    (⟨1748779201000000000⟩, .reply 2 (Wait.answer (.ok ⟨200, Table.empty, ""⟩)
      (.error .loginRequired)))]

/-- One call a second is made, and the third one is turned away. -/
theorem course_paced_guarded : ∃ (ms : List Moment) (s : Scene),
    Course (scene (guarded (.new 1 1000 600))) ms s ∧
      Route.isAuthFamily "/auth/login" = true ∧
      (guarded (.new 1 1000 600)).limiter.limit? "/auth/login" = some (.new 1 1000 600) ∧
      0 < (EndpointLimit.new 1 1000 600).intervalMs ∧
      (guarded (.new 1 1000 600)).limiter.buckets.find? "/auth/login" = none ∧
      (∀ x ∈ ms, sendsTo "/auth/login" x.work = true ∨ SparedBy "/auth/login" x.work) ∧
      (ms.Pairwise fun x y => x.start.now ≤ y.start.now) ∧
      ms.map (reaches "/auth/login") = [true, false, false, true, false] ∧
      Paced "/auth/login" (.new 1 1000 600) ms ∧
      Throttles s "/auth/login" (.new 1 1000 600) := by
  have hpasses : workplace.passes (scene (guarded (.new 1 1000 600))) threeSpellings 0
      (fun ms x ms' _ => decide ((ms ++ x :: ms').map (reaches "/auth/login") =
          [true, false, false, true, false] ∧
        ((ms ++ x :: ms').Pairwise fun x y => x.start.now ≤ y.start.now) ∧
        ∀ y ∈ ms ++ x :: ms', sendsTo "/auth/login" y.work = true)) = true := by
    decide +kernel
  obtain ⟨ms, x, ms', s, h, htest⟩ := Workplace.exists_course hpasses
  obtain ⟨hreaches, hclock, hsends⟩ := of_decide_eq_true htest
  have hfamily : Route.isAuthFamily "/auth/login" = true := by decide +kernel
  have hlimit : (guarded (.new 1 1000 600)).limiter.limit? "/auth/login" =
      some (.new 1 1000 600) := by decide +kernel
  have hnew : (guarded (.new 1 1000 600)).limiter.buckets.find? "/auth/login" = none := by
    decide +kernel
  have hspares : ∀ y ∈ ms ++ x :: ms',
      sendsTo "/auth/login" y.work = true ∨ SparedBy "/auth/login" y.work :=
    fun y hy => .inl (hsends y hy)
  exact ⟨_, s, h, hfamily, hlimit, by decide, hnew, hspares, hclock, hreaches,
    course_paced h hfamily hlimit (by decide) hnew hspares hclock⟩

/-- A call that finds no token faults, and gets no error, if the bucket is refilled only out of the
calendar. -/
theorem not_turnedAway_strained : ¬∀ (c : Client) (ms : List Moment) (s : Scene) (path : String)
    (limit : EndpointLimit), Course (scene c) ms s → Route.isAuthFamily path = true →
      c.limiter.limit? path = some limit → 1 ≤ limit.capacity → 0 < limit.intervalMs →
      c.limiter.buckets.find? path = none → (∀ x ∈ ms, sendsTo path x.work = true) →
      (ms.Pairwise fun x y => x.start.now ≤ y.start.now) →
      ∀ (r : Request) (now : Instant), Route.normalize r.path = path → now.InCalendar →
        (∀ x ∈ ms, x.start.now ≤ now) → Exhausted path limit ⟨none, now, s.state⟩ →
          TurnedAway ⟨none, now, s.state⟩
            (workplace.carryOut (.call (.send r)) now s.state).result := by
  intro hclaim
  let request : Request := .new .post "/auth/login"
  let limit : EndpointLimit := .new 1 1000000000000000 0
  let now : Instant := ⟨1748779200000000000⟩
  have hpasses : workplace.passes (scene (guarded limit)) [(now, .ask (.send request))] 0
      (fun ms x ms' s => decide ((∀ y ∈ ms ++ x :: ms', sendsTo "/auth/login" y.work = true) ∧
        ((ms ++ x :: ms').Pairwise fun x y => x.start.now ≤ y.start.now) ∧
        (∀ y ∈ ms ++ x :: ms', y.start.now ≤ now) ∧
        (Bucket.ready (s.state.limiter.buckets.find? "/auth/login") limit now).tokens = 0 ∧
        (workplace.carryOut (.call (.send request)) now s.state).result.isFault = true)) =
          true := by
    decide +kernel
  obtain ⟨ms, x, ms', s, h, htest⟩ := Workplace.exists_course hpasses
  obtain ⟨hsends, hclock, hnow, hempty, hfaults⟩ := of_decide_eq_true htest
  have hturned := hclaim (guarded limit) _ s "/auth/login" limit h (by decide +kernel)
    (by decide +kernel) (by decide) (by decide) (by decide +kernel) hsends hclock request now
    (by decide +kernel) (by decide +kernel) hnow hempty
  generalize (workplace.carryOut (.call (.send request)) now s.state).result = res
    at hturned hfaults
  rcases hturned with ⟨-, span, rfl⟩ | ⟨e, rfl, -⟩
  · cases hfaults
  · cases hfaults

end Client

end ClientSession
