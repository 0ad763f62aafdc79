import ClientSession.Proofs.Limit.Calls
import ClientSession.Proofs.Flights

/-!
# Metered pairs

While the limit of a pair of endpoint and user stands and its bucket is not dropped, callers get the
tokens that the windows allow, however they and their waits are interleaved, whatever the clock
reads, and whatever is done to other buckets.

- `Limiter.used_of_course`: the bucket of the pair is the one that the uses have left.
- `Limiter.course_metered`: what callers get, and that the limiter goes on serving them.
-/

namespace ClientSession

namespace Limiter

/-- The use of the pair's bucket in a moment, if it is one. -/
def draw? (endpoint : String) (user : Option String) (x : Moment Limiter Call Answer Empty) :
    Option Draw :=
  match x.work with
  | .call (.on e u purpose) =>
    if e = endpoint ∧ u = user ∧ dropped x = false then
      some ⟨x.start.now, purpose.asks, granted x⟩
    else none
  | _ => none

/-- The uses of the pair's bucket in a course. -/
def draws (endpoint : String) (user : Option String)
    (ms : List (Moment Limiter Call Answer Empty)) : List Draw :=
  ms.filterMap (draw? endpoint user)

/-- The call is one on the pair, or leaves its limit and its bucket alone. -/
def Call.Spares (endpoint : String) (user : Option String) : Call → Prop
  | .on e u _ => e = endpoint ∧ u = user ∨ bucketName e u ≠ bucketName endpoint user
  | .configure e _ => e ≠ endpoint ∧ belongsTo (bucketName endpoint user) e = false
  | .reset e u => bucketName e u ≠ bucketName endpoint user
  | .resetAll => False

instance (endpoint : String) (user : Option String) (k : Call) :
    Decidable (k.Spares endpoint user) :=
  match k with
  | .on _ _ _ => inferInstanceAs (Decidable (_ ∧ _ ∨ _))
  | .configure _ _ => inferInstanceAs (Decidable (_ ∧ _))
  | .reset _ _ => inferInstanceAs (Decidable (_ ≠ _))
  | .resetAll => inferInstanceAs (Decidable False)

variable {endpoint : String} {user : Option String} {limit : EndpointLimit} {l : Limiter}
  {ms : List (Moment Limiter Call Answer Empty)} {s : Scene Limiter Call Answer Empty}
  {x : Moment Limiter Call Answer Empty}

/-- The limit of the pair stands, has stood in all moments, and the bucket is what the uses have
left. -/
structure Follows (endpoint : String) (user : Option String) (limit : EndpointLimit)
    (ms : List (Moment Limiter Call Answer Empty)) (l : Limiter) : Prop where
  stands : l.limit? endpoint = some limit
  stood : ∀ x ∈ ms, x.start.state.limit? endpoint = some limit
  used : Bucket.Used limit (draws endpoint user ms)
    (l.buckets.find? (bucketName endpoint user))

theorem draws_snoc_of_none (h : draw? endpoint user x = none) :
    draws endpoint user (ms ++ [x]) = draws endpoint user ms := by
  rw [draws, List.filterMap_append, List.filterMap_cons, h]
  simp [draws]

theorem draws_snoc_of_some {d : Draw} (h : draw? endpoint user x = some d) :
    draws endpoint user (ms ++ [x]) = draws endpoint user ms ++ [d] := by
  rw [draws, List.filterMap_append, List.filterMap_cons, h]
  simp [draws]

theorem Follows.stood_snoc (h : Follows endpoint user limit ms x.start.state) :
    ∀ y ∈ ms ++ [x], y.start.state.limit? endpoint = some limit := by
  intro y hy
  rcases List.mem_append.mp hy with hy | hy
  · exact h.stood y hy
  · obtain rfl := List.mem_singleton.mp hy
    exact h.stands

/-- A moment that is no use of the pair's bucket, and leaves it and the limit as they are. -/
theorem Follows.aside (h : Follows endpoint user limit ms x.start.state)
    (hdraw : draw? endpoint user x = none) {l' : Limiter}
    (hlimit : l'.limit? endpoint = x.start.state.limit? endpoint)
    (hbucket : l'.buckets.find? (bucketName endpoint user) =
      x.start.state.buckets.find? (bucketName endpoint user)) :
    Follows endpoint user limit (ms ++ [x]) l' where
  stands := hlimit.trans h.stands
  stood := h.stood_snoc
  used := by
    rw [draws_snoc_of_none hdraw, hbucket]
    exact h.used

/-- The limit under which a stretch on the pair acts is the one that stands. -/
theorem Follows.limit_eq {m : Memo} {n : Nat} {i : Start Limiter}
    (h : Follows endpoint user limit ms i.state) (hm : Remembered ms n m)
    {limit' : EndpointLimit} (hheld : HeldTo m i endpoint limit') : limit' = limit := by
  cases hheld with
  | begins hcue hl => exact Option.some.inj (hl.symm.trans h.stands)
  | resumes hcue hm' =>
      obtain ⟨y, hy, hholds⟩ := hm endpoint limit' hm'
      exact Option.some.inj (hholds.limit.symm.trans (h.stood y hy))

/-- A moment of a call on the pair is a use of its bucket. -/
theorem Follows.own {m : Memo} (h : Follows endpoint user limit ms x.start.state)
    (hm : Remembered ms x.number m) {purpose : Purpose}
    (hwork : x.work = .call (.on endpoint user purpose)) (hd : dropped x = false)
    (hacts : Acts endpoint user purpose m x.start (granted x) x.left) :
    Follows endpoint user limit (ms ++ [x]) x.left := by
  have hdraw : draw? endpoint user x = some ⟨x.start.now, purpose.asks, granted x⟩ := by
    simp only [draw?, hwork, hd, and_self, if_true]
  cases hacts with
  | free hcue hl hleft hgranted =>
      rw [h.stands] at hl
      cases hl
  | held limit' hheld hpurpose huses =>
      obtain rfl := h.limit_eq hm hheld
      refine ⟨?_, h.stood_snoc, ?_⟩
      · rw [huses.limit?_eq]
        exact h.stands
      · rw [draws_snoc_of_some hdraw]
        exact huses.used h.used

/-- A moment of a call on another bucket leaves the pair's alone. -/
theorem Follows.other {m : Memo} (h : Follows endpoint user limit ms x.start.state)
    (hdraw : draw? endpoint user x = none) {e : String} {u : Option String} {purpose : Purpose}
    (hname : bucketName e u ≠ bucketName endpoint user)
    (hacts : Acts e u purpose m x.start (granted x) x.left) :
    Follows endpoint user limit (ms ++ [x]) x.left := by
  cases hacts with
  | free hcue hl hleft hgranted => exact h.aside hdraw (by rw [hleft]) (by rw [hleft])
  | held limit' hheld hpurpose huses =>
      exact h.aside hdraw (huses.limit?_eq endpoint) (huses.other _ hname.symm)

theorem draw?_of_dropped (hd : dropped x = true) : draw? endpoint user x = none := by
  unfold draw?
  split
  · rw [hd]
    simp
  · rfl

theorem Follows.step {m : Memo} (h : Follows endpoint user limit ms x.start.state)
    (hm : Remembered ms x.number m) (hx : Effect m x)
    (hspares : ∀ k, x.work = .call k → k.Spares endpoint user) :
    Follows endpoint user limit (ms ++ [x]) x.left := by
  cases hx with
  | dropped hd hcue hleft => exact h.aside (draw?_of_dropped hd) (by rw [hleft]) (by rw [hleft])
  | on e u purpose hwork hd hacts =>
      have hbucket := hspares _ hwork
      by_cases hpair : e = endpoint ∧ u = user
      · obtain ⟨rfl, rfl⟩ := hpair
        exact h.own hm hwork hd hacts
      · have hdraw : draw? endpoint user x = none := by
          rw [draw?, hwork]
          exact if_neg fun hall => hpair ⟨hall.1, hall.2.1⟩
        exact h.other hdraw (hbucket.resolve_left hpair) hacts
  | configure e limit' hwork hleft =>
      obtain ⟨hne, hother⟩ := hspares _ hwork
      refine h.aside (by rw [draw?, hwork]) ?_ ?_
      · rw [hleft, limit?_configure, if_neg hne]
      · rw [hleft, find?_configure, if_neg (Bool.eq_false_iff.mp hother)]
  | reset e u hwork hleft =>
      have hother := hspares _ hwork
      refine h.aside (by rw [draw?, hwork]) (by rw [hleft]; rfl) ?_
      rw [hleft, reset, Table.find?_erase, if_neg hother]
  | resetAll hwork hleft => exact (hspares _ hwork).elim

/-- The bucket of the pair is the one that the uses have left. -/
theorem used_of_course (h : workplace.Course (Workplace.idle l) ms s)
    (hlimit : l.limit? endpoint = some limit)
    (hnew : l.buckets.find? (bucketName endpoint user) = none)
    (hspares : ∀ x ∈ ms, ∀ k, x.work = .call k → k.Spares endpoint user) :
    Follows endpoint user limit ms s.state := by
  refine course_induction h ⟨hlimit, fun _ hx => (nomatch hx), ?_⟩
    fun before x after m heq hm hx hf => hf.step hm hx (hspares x (by rw [heq]; simp))
  rw [hnew]
  exact .missing

/-! ## Serving -/

/-- At a reading of the clock, a call on the pair that begins gets an answer or waits, and one that
waits gets an answer. -/
structure Serves (s : Scene Limiter Call Answer Empty) (endpoint : String) (user : Option String)
    (now : Instant) : Prop where
  begins : ∀ purpose, ∃ x, workplace.Step s x ∧ x.work = .call (.on endpoint user purpose) ∧
    x.start = ⟨none, now, s.state⟩ ∧ dropped x = false
  ends : ∀ f ∈ s.flights, ∀ purpose, f.work = .call (.on endpoint user purpose) →
    ∃ y, f.waiting = some y ∧ ∀ a, ∃ x b, workplace.Step s x ∧ x.number = f.number ∧
      x.start = ⟨some ⟨y.wait, a⟩, now, s.state⟩ ∧ x.result = .ended (.answers b)

theorem not_strained {start now : Instant} (hf : Follows endpoint user limit ms s.state)
    (hl : 0 < limit.intervalMs) (hstart : Draw.BeginAt start (draws endpoint user ms))
    (hfirst : draws endpoint user ms = [] → now = start) (hnow : now.InCalendar)
    (hend : (limit.windowEnd start
      (max (Draw.highest start (draws endpoint user ms)) now)).InCalendar) :
    ¬s.state.Strained (bucketName endpoint user) limit now := by
  have hready := Bucket.StandsAt.ready (d := ⟨now, false, false⟩)
    (hf.used.standsAt hl hstart) hl (hstart.snoc hfirst)
  rw [Draw.highest_snoc] at hready
  refine not_not_intro ⟨hnow, ?_⟩
  rw [hready.nextRefill_eq]
  exact hend

theorem settle_isSome {f : Flight Limiter Call Answer Empty} {r : Run Limiter (Ending Answer Empty)}
    (h : r.result ≠ .paused .faults) : ∃ s', workplace.settle s f r = some s' := by
  cases r with
  | done l e =>
      cases e with
      | answers a => exact ⟨_, rfl⟩
      | leaves => exact ⟨_, rfl⟩
      | again j => exact nomatch j
  | fault l e => exact absurd rfl h
  | stay l => exact ⟨_, rfl⟩
  | wait l w drop resume => exact ⟨_, rfl⟩

/-- A stretch on the pair that keeps the rules does not fault where its bucket is not strained. -/
theorem Follows.not_faults {m : Memo} {n : Nat} {i : Start Limiter} {purpose : Purpose}
    {r : Run Limiter (Ending Answer Empty)} (h : Follows endpoint user limit ms i.state)
    (hm : Remembered ms n m) (hs : ¬i.state.Strained (bucketName endpoint user) limit i.now)
    (hr : r.Meets (rules.pact (.call (.on endpoint user purpose)))
      (rules.outcome (.call (.on endpoint user purpose))) m i) :
    r.result ≠ .paused .faults := by
  intro hfaults
  cases r with
  | done l e => cases hfaults
  | stay l => cases hfaults
  | wait l w drop resume => cases hfaults
  | fault l e =>
      obtain ⟨-, limit', hheld, hstrained⟩ := hr
      rw [h.limit_eq hm hheld] at hstrained
      exact hs hstrained

/-- A caller waits only once, and is not resumed too early. -/
theorem answers_of_resumed {m : Memo} {i : Start Limiter} {purpose : Purpose}
    {r : Run Limiter (Ending Answer Empty)}
    (hr : r.Meets (rules.pact (.call (.on endpoint user purpose)))
      (rules.outcome (.call (.on endpoint user purpose))) m i)
    (hresumed : i.cue ≠ none) (hfaults : r.result ≠ .paused .faults) :
    ∃ b, r.result = .ended (.answers b) := by
  cases r with
  | done l e =>
      obtain ⟨b, rfl, -⟩ := hr
      exact ⟨b, rfl⟩
  | fault l e => exact absurd rfl hfaults
  | stay l => exact hr.elim
  | wait l w drop resume =>
      obtain ⟨_, ⟨-, hcue, -⟩, -⟩ := hr
      exact absurd hcue hresumed

theorem serves_of_course {now : Instant} (h : workplace.Course (Workplace.idle l) ms s)
    (hf : Follows endpoint user limit ms s.state)
    (hs : ¬s.state.Strained (bucketName endpoint user) limit now) :
    Serves s endpoint user now where
  begins purpose := by
    have hmeets := rules_keptBy.meets (.call (.on endpoint user purpose)) now s.state
    have hresult := hf.not_faults (i := ⟨none, now, s.state⟩) (remembered_none ms 0) hs hmeets
    obtain ⟨s', hs'⟩ := settle_isSome hresult
    refine ⟨_, .call _ now s' hs', rfl, rfl, ?_⟩
    rw [dropped]
    dsimp only
    cases workplace.carryOut (.call (.on endpoint user purpose)) now s.state <;> rfl
  ends f hmem purpose hwork := by
    obtain ⟨-, hunderway⟩ := (h.sound (course_not_stays h)).1 f hmem
    obtain ⟨hstopped, hwaits⟩ := hunderway (by rw [hwork]; rfl)
    obtain ⟨y, hy⟩ := Option.isSome_iff_exists.mp hwaits
    refine ⟨y, hy, fun a => ?_⟩
    obtain ⟨m, hm, hawaits⟩ := (course_keeps h).2 f hmem y hy
    have hmeets := hawaits.meets a now s.state
    rw [hwork] at hmeets
    have hresult := hf.not_faults (i := ⟨some ⟨y.wait, a⟩, now, s.state⟩) hm hs hmeets
    obtain ⟨s', hs'⟩ := settle_isSome hresult
    obtain ⟨b, hb⟩ := answers_of_resumed hmeets (Option.some_ne_none _) hresult
    exact ⟨_, b, .reply f y a now s' hmem hstopped hy hs', rfl, rfl, hb⟩

/-- Callers of a pair get the tokens that the windows allow: a token that is asked for is given if
and only if fewer than the capacity have been given in the window of the highest reading so far.
That makes at most as many times the capacity as windows have begun, and at most twice the capacity
in a span as long as an interval if the clock does not go back. The limiter goes on serving the pair
as long as the end of the window is in the calendar. -/
theorem course_metered (h : workplace.Course (Workplace.idle l) ms s)
    (hlimit : l.limit? endpoint = some limit) (hl : 0 < limit.intervalMs)
    (hnew : l.buckets.find? (bucketName endpoint user) = none)
    (hspares : ∀ x ∈ ms, ∀ k, x.work = .call k → k.Spares endpoint user) (start : Instant)
    (hstart : Draw.BeginAt start (draws endpoint user ms)) :
    Draw.Metered limit start (draws endpoint user ms) ∧
      (∀ n : Nat, ((Draw.timed start (draws endpoint user ms)).countP fun d => d.granted &&
        decide (d.reading.nanos < start.nanos + n * limit.interval.nanos)) ≤
          n * limit.capacity) ∧
      ((draws endpoint user ms).Pairwise (fun d d' => d.reading ≤ d'.reading) →
        ∀ t : Instant, ((draws endpoint user ms).countP fun d => d.granted &&
          decide (t ≤ d.reading ∧ d.reading.nanos < t.nanos + limit.interval.nanos)) ≤
            2 * limit.capacity) ∧
      ∀ now : Instant, (draws endpoint user ms = [] → now = start) → now.InCalendar →
        (limit.windowEnd start
          (max (Draw.highest start (draws endpoint user ms)) now)).InCalendar →
            Serves s endpoint user now := by
  have hf := used_of_course h hlimit hnew hspares
  have hmetered := hf.used.metered hl hstart
  refine ⟨hmetered, hmetered.upTo_le hl, hmetered.span_le hl hstart, ?_⟩
  intro now hfirst hnow hend
  exact serves_of_course h hf (not_strained hf hl hstart hfirst hnow hend)

/-- One call a second. -/
def oneASecond : Limiter := empty.configure "/x" (.new 1 1000 2000)

/-- Two callers want a token in the same second, and the clock is set back while the second one
waits. -/
def twoCallers : List (Instant × Move Call) :=
  [(⟨0⟩, .ask (.on "/x" none .acquire)),
    (⟨400000000⟩, .ask (.on "/x" none .acquire)),
    (⟨-1000000000⟩, .ask (.on "/x" none .available)),
    (⟨1000000000⟩, .reply 1 (Wait.answer (.ok ⟨200, Table.empty, ""⟩) (.error .loginRequired)))]

def isSparing (endpoint : String) (user : Option String) : Work Call Empty → Bool
  | .call k => decide (k.Spares endpoint user)
  | .job _ => true

theorem course_metered_oneASecond : ∃ (ms : List (Moment Limiter Call Answer Empty))
    (s : Scene Limiter Call Answer Empty), workplace.Course (Workplace.idle oneASecond) ms s ∧
      oneASecond.limit? "/x" = some (.new 1 1000 2000) ∧
      oneASecond.buckets.find? (bucketName "/x" none) = none ∧
      (∀ x ∈ ms, ∀ k, x.work = .call k → k.Spares "/x" none) ∧
      Draw.BeginAt ⟨0⟩ (draws "/x" none ms) ∧
      (draws "/x" none ms).map (·.granted) = [true, false, false, true] ∧
      Draw.Metered (.new 1 1000 2000) ⟨0⟩ (draws "/x" none ms) ∧
      Serves s "/x" none ⟨1500000000⟩ := by
  let uses : List Draw := [⟨⟨0⟩, true, true⟩, ⟨⟨400000000⟩, true, false⟩,
    ⟨⟨-1000000000⟩, false, false⟩, ⟨⟨1000000000⟩, true, true⟩]
  have hpasses : workplace.passes (Workplace.idle oneASecond) twoCallers 0
      (fun ms x ms' _ => decide (draws "/x" none (ms ++ x :: ms') = uses) &&
        (ms ++ x :: ms').all fun y => isSparing "/x" none y.work) = true := by
    decide +kernel
  obtain ⟨ms, x, ms', s, hcourse, htest⟩ := Workplace.exists_course hpasses
  rw [Bool.and_eq_true, decide_eq_true_eq, List.all_eq_true] at htest
  obtain ⟨huses, htest⟩ := htest
  have hspares : ∀ y ∈ ms ++ x :: ms', ∀ k, y.work = .call k → k.Spares "/x" none := by
    intro y hy k hk
    have hpass := htest y hy
    rw [hk] at hpass
    exact of_decide_eq_true hpass
  have hlimit : oneASecond.limit? "/x" = some (.new 1 1000 2000) := by decide +kernel
  have hnew : oneASecond.buckets.find? (bucketName "/x" none) = none := by decide +kernel
  have hstart : Draw.BeginAt ⟨0⟩ (draws "/x" none (ms ++ x :: ms')) := by
    rw [huses]
    rintro d hd
    obtain rfl := Option.some.inj hd
    rfl
  obtain ⟨hmetered, -, -, hserves⟩ :=
    course_metered hcourse hlimit (by decide) hnew hspares ⟨0⟩ hstart
  refine ⟨_, s, hcourse, hlimit, hnew, hspares, hstart, by rw [huses]; rfl, hmetered,
    hserves _ (fun hnone => ?_) (by decide +kernel) ?_⟩
  · rw [huses] at hnone
    exact absurd hnone (List.cons_ne_nil _ _)
  · rw [huses]
    decide +kernel

end Limiter

end ClientSession
