import ClientSession.Proofs.Limit.Metering
import ClientSession.Proofs.Limit.Told

/-!
# Hints of how long to wait

Whoever finds the bucket of a pair empty is told when the next token comes. That is the end of the
window, to the nanosecond, although a refill counts whole milliseconds: until then every check is
refused, and from then on every check is allowed, as long as nobody else takes the tokens.

- `Bucket.StandsAt.refused_until`, `Bucket.StandsAt.full_from`: the bucket before and after the end
  of the window.
- `Limiter.acquire_of_delay`: a caller that finds the bucket empty waits once at most, and for how
  long.
- `Limiter.course_hints`: what the hints of a course are worth.
-/

namespace ClientSession

namespace Draw

variable {start t : Instant} {ds ds' : List Draw}

theorem BeginAt.left (h : BeginAt start (ds ++ ds')) : BeginAt start ds := by
  intro d hd
  refine h d ?_
  rw [List.head?_append, hd]
  rfl

theorem highest_le (hstart : start ≤ t) (h : ∀ d ∈ ds, d.reading ≤ t) : highest start ds ≤ t := by
  induction ds using List.reverseRecOn with
  | nil => exact hstart
  | append_singleton ds d ih =>
      have hds := ih fun d' hd' => h d' (List.mem_append_left _ hd')
      have hd := h d (by simp)
      rw [highest_snoc]
      show (max _ d.reading).nanos ≤ t.nanos
      rw [Instant.nanos_max]
      exact max_le hds hd

end Draw

/-- What is asked for in vain does not count. -/
theorem EndpointLimit.grantsIn_append {l : EndpointLimit} {start : Instant} {k : Int}
    {ds ds' : List Draw} (h : ∀ d ∈ ds', d.granted = false) :
    l.grantsIn start k (ds ++ ds') = l.grantsIn start k ds := by
  induction ds' using List.reverseRecOn with
  | nil => rw [List.append_nil]
  | append_singleton ds' d ih =>
      have hd : ¬d.granted = true := Bool.eq_false_iff.mp (h d (by simp))
      rw [← List.append_assoc, EndpointLimit.grantsIn_snoc, if_neg fun hgiven => hd hgiven.1,
        Nat.add_zero, ih fun d' hd' => h d' (List.mem_append_left _ hd')]

namespace Bucket

variable {b b' : Bucket} {l : EndpointLimit} {start t now earliest : Instant} {wait : Span}
  {ds ds' : List Draw}

/-! ## Decisions -/

theorem decision_of_tokens (h : 0 < b.tokens) : b.decision l now = .ok .allow := if_pos h

/-- Before the next refill, the time until then is told exactly. -/
theorem decision_of_empty (hempty : b.tokens = 0) (hnow : now < b.nextRefill l)
    (hnext : (b.nextRefill l).InCalendar) :
    b.decision l now = .ok (.delay (b.nextRefill l) ((b.nextRefill l).since now)) := by
  have hlast : b.lastRefill.plus? l.interval = some (b.nextRefill l) := if_pos hnext
  have hlater : ¬(b.nextRefill l).since now < Span.zero := by
    have hsince : 0 ≤ (b.nextRefill l).nanos - now.nanos :=
      Int.sub_nonneg.mpr (Int.le_of_lt hnow)
    exact Int.not_lt.mpr hsince
  have hover : now.plus? ((b.nextRefill l).since now) = some (b.nextRefill l) := by
    have hsum : (⟨now.nanos + ((b.nextRefill l).since now).nanos⟩ : Instant) = b.nextRefill l :=
      congrArg Instant.mk (add_sub_cancel _ _)
    rw [Instant.plus?, hsum, if_pos hnext]
  have hwait : b.timeToNext l now = .ok ((b.nextRefill l).since now) := by
    rw [timeToNext, if_neg (by omega), Instant.plus, hlast]
    exact congrArg Except.ok (if_neg hlater)
  rw [decision, if_neg (by omega), hwait]
  simp only [bind, Except.bind, Instant.plus, hover]
  rfl

/-- Only an empty bucket delays a caller, and then its next refill can be told. -/
theorem of_decision_eq_delay (h : b.decision l now = .ok (.delay earliest wait)) :
    b.tokens = 0 ∧ (b.nextRefill l).InCalendar ∧ b.shortage l now = .ok (some wait) := by
  unfold decision at h
  split at h
  · cases h
  · rename_i hempty
    cases hwait : b.timeToNext l now with
    | error f =>
        rw [hwait] at h
        cases h
    | ok wait' =>
        rw [hwait] at h
        cases hover : now.plus wait' with
        | error f =>
            simp only [bind, Except.bind, hover] at h
            cases h
        | ok next =>
            simp only [bind, Except.bind, hover] at h
            cases h
            refine ⟨Nat.eq_zero_of_not_pos hempty, ?_, ?_⟩
            · by_contra hnext
              have hlast : b.lastRefill.plus? l.interval = none := if_neg hnext
              rw [timeToNext, if_neg hempty, Instant.plus, hlast] at hwait
              cases hwait
            · rw [shortage, if_neg hempty, hwait]
              rfl

theorem decision_eq_allow_iff (l : EndpointLimit) (now : Instant) :
    b.decision l now = .ok .allow ↔ 0 < b.tokens := by
  refine ⟨fun h => ?_, decision_of_tokens⟩
  by_contra hempty
  rw [decision, if_neg hempty] at h
  cases hwait : b.timeToNext l now with
  | error f =>
      rw [hwait] at h
      cases h
  | ok wait =>
      rw [hwait] at h
      cases hover : now.plus wait <;> simp only [bind, Except.bind, hover] at h <;> cases h

/-! ## The end of the window -/

namespace StandsAt

/-- Until the end of the window an empty bucket stays so. -/
theorem refused_until (h : StandsAt l start ds t b) (hempty : b.tokens = 0)
    (h' : StandsAt l start (ds ++ ds') now b') (hl : 0 < l.intervalMs)
    (hnone : ∀ d ∈ ds', d.granted = false) (ht : t ≤ now) (hnow : now < b.nextRefill l) :
    b'.tokens = 0 ∧ b'.nextRefill l = b.nextRefill l := by
  have hsame : l.window start now = l.window start t := by
    have hbegun : b.lastRefill.nanos ≤ t.nanos := h.lastRefill_le hl
    have hlate : t.nanos ≤ now.nanos := ht
    have hends : now.nanos < b.lastRefill.nanos + l.interval.nanos := hnow
    rw [h.refilled] at hbegun hends
    exact (EndpointLimit.window_eq_iff hl).mpr ⟨by omega, hends⟩
  have hleft := h.left
  have hleft' := h'.left
  rw [hsame, EndpointLimit.grantsIn_append hnone] at hleft'
  refine ⟨by omega, ?_⟩
  rw [h'.nextRefill_eq, h.nextRefill_eq, EndpointLimit.windowEnd, EndpointLimit.windowEnd, hsame]

/-- From the end of the window on it is full. -/
theorem full_from (h : StandsAt l start ds t b) (ht : Draw.highest start ds ≤ t)
    (h' : StandsAt l start (ds ++ ds') now b') (hl : 0 < l.intervalMs)
    (hnone : ∀ d ∈ ds', d.granted = false) (hnow : b.nextRefill l ≤ now) :
    b'.tokens = l.capacity := by
  have hlater : l.window start t < l.window start now := by
    have hends : (b.nextRefill l).nanos ≤ now.nanos := hnow
    rw [h.nextRefill_eq, EndpointLimit.windowEnd] at hends
    dsimp only at hends
    rw [← Int.add_one_le_iff, EndpointLimit.window, EndpointLimit.window,
      Int.le_ediv_iff_mul_le (l.nanos_interval_pos hl)]
    rw [EndpointLimit.window] at hends
    omega
  have hleft' := h'.left
  rwa [EndpointLimit.grantsIn_append hnone, EndpointLimit.grantsIn_eq_zero hl
    (lt_of_le_of_lt (EndpointLimit.window_mono hl ht) hlater), Nat.add_zero] at hleft'

end StandsAt

end Bucket

namespace Limiter

variable {l l' : Limiter} {endpoint : String} {user : Option String} {limit : EndpointLimit}
  {start now earliest : Instant} {wait : Span}

/-! ## Checks -/

/-- Whoever checks the pair is refused, and told until when. -/
structure Refuses (l : Limiter) (endpoint : String) (user : Option String)
    (now earliest : Instant) : Prop where
  mayCall : (l.mayCall endpoint user now).map (·.1) = .ok false
  evaluate : (l.evaluate endpoint user now).map (·.1) =
    .ok (.delay earliest (earliest.since now))
  remainingWait : (l.remainingWait endpoint user now).map (·.1) = .ok (earliest.since now)

/-- Whoever checks the pair may call. -/
structure Allows (l : Limiter) (endpoint : String) (user : Option String) (now : Instant) :
    Prop where
  mayCall : (l.mayCall endpoint user now).map (·.1) = .ok true
  evaluate : (l.evaluate endpoint user now).map (·.1) = .ok .allow
  remainingWait : (l.remainingWait endpoint user now).map (·.1) = .ok Span.zero

/-- A pair is told what its bucket decides. -/
theorem map_evaluate (h : l.limit? endpoint = some limit) :
    (l.evaluate endpoint user now).map (·.1) =
      (Bucket.ready (l.buckets.find? (bucketName endpoint user)) limit now).decision limit now := by
  rw [evaluate_eq h]
  dsimp only
  cases Bucket.decision _ limit now <;> rfl

theorem map_mayCall : (l.mayCall endpoint user now).map (·.1) =
    ((l.evaluate endpoint user now).map (·.1)).map fun d => decide (d = .allow) := by
  unfold mayCall
  cases l.evaluate endpoint user now <;> rfl

theorem map_remainingWait : (l.remainingWait endpoint user now).map (·.1) =
    ((l.evaluate endpoint user now).map (·.1)).map waitOf := by
  unfold remainingWait
  cases l.evaluate endpoint user now <;> rfl

theorem carryOut_evaluate :
    (workplace.carryOut (.call (.on endpoint user .evaluate)) now l).result =
      match l.evaluate endpoint user now with
      | .error _ => .paused .faults
      | .ok r => .ended (.answers (.decided r.1)) := by
  show (Run.bind _ (Run.bind _ (Activity.attempt (fun now l => l.evaluate endpoint user now) now l)
    now) now).result = _
  unfold Activity.attempt
  dsimp only
  cases l.evaluate endpoint user now <;> rfl

theorem refuses_of_evaluate (h : (l.evaluate endpoint user now).map (·.1) =
    .ok (.delay earliest (earliest.since now))) : l.Refuses endpoint user now earliest where
  mayCall := by
    rw [map_mayCall, h]
    rfl
  evaluate := h
  remainingWait := by
    rw [map_remainingWait, h]
    rfl

theorem allows_of_evaluate (h : (l.evaluate endpoint user now).map (·.1) = .ok .allow) :
    l.Allows endpoint user now where
  mayCall := by
    rw [map_mayCall, h]
    rfl
  evaluate := h
  remainingWait := by
    rw [map_remainingWait, h]
    rfl

/-! ## Callers that wait -/

theorem tryTake_of_delay (hlimit : l.limit? endpoint = some limit)
    (h : (l.evaluate endpoint user now).map (·.1) = .ok (.delay earliest wait)) :
    ∃ l', l.tryTake endpoint user limit now = .ok (some wait, l') := by
  rw [map_evaluate hlimit] at h
  obtain ⟨-, -, hwait⟩ := Bucket.of_decision_eq_delay h
  rw [tryTake_eq]
  dsimp only
  rw [hwait]
  exact ⟨_, rfl⟩

/-- A caller that finds the bucket empty waits for the next token, but no longer than the limit
allows; without that it gets none. -/
theorem acquire_of_delay (hlimit : l.limit? endpoint = some limit)
    (h : (l.evaluate endpoint user now).map (·.1) = .ok (.delay earliest wait)) :
    (acquire endpoint user now l).result =
      if (min wait limit.maxWait).isPositive = true then
        .paused (.waits (.sleep (min wait limit.maxWait)))
      else .ended false := by
  obtain ⟨l₁, htry⟩ := tryTake_of_delay hlimit h
  rw [acquire_limited hlimit, htry]
  dsimp only
  split
  · rename_i hpositive
    rw [afterTry_waits hpositive]
    rfl
  · rename_i hpositive
    have htold := tryTake_told (tryTake_uses htry).ready_eq
    rw [afterTry_goesOn hpositive, takeAgain_eq]
    cases hagain : l₁.tryTake endpoint user limit now with
    | error f =>
        rw [hagain, htry] at htold
        cases htold
    | ok r =>
        rw [hagain, htry] at htold
        have hwait : r.1 = some wait := Except.ok.inj htold
        exact congrArg (fun o : Option Span => Result.ended o.isNone) hwait

/-- A caller that has waited does not wait again, and gets a token if there is one. -/
theorem takeAgain_told : (asWork (takeAgain endpoint user limit) now l).result =
    match (Bucket.ready (l.buckets.find? (bucketName endpoint user)) limit now).shortage limit
      now with
    | .error _ => .paused .faults
    | .ok r => .ended (.answers (.granted r.isNone)) := by
  show (Run.bind _ (Run.bind _ (takeAgain endpoint user limit now l) now) now).result = _
  rw [takeAgain_eq, tryTake_eq]
  dsimp only
  cases Bucket.shortage _ limit now <;> rfl

theorem takeAgain_granted_iff :
    (asWork (takeAgain endpoint user limit) now l).result = .ended (.answers (.granted true)) ↔
      0 < (Bucket.ready (l.buckets.find? (bucketName endpoint user)) limit now).tokens := by
  rw [takeAgain_told]
  by_cases h : 0 < (Bucket.ready (l.buckets.find? (bucketName endpoint user)) limit now).tokens
  · rw [Bucket.shortage, if_pos h]
    exact iff_of_true rfl h
  · rw [Bucket.shortage, if_neg h]
    refine iff_of_false ?_ h
    cases Bucket.timeToNext _ limit now <;> exact fun hr => nomatch hr

theorem takeAgain_not_waits (w : Wait) :
    (asWork (takeAgain endpoint user limit) now l).result ≠ .paused (.waits w) := by
  rw [takeAgain_told]
  cases Bucket.shortage _ limit now <;> exact fun hr => nomatch hr

/-! ## Courses -/

variable {ms : List (Moment Limiter Call Answer Empty)} {s : Scene Limiter Call Answer Empty}
  {x : Moment Limiter Call Answer Empty}

/-- The bucket that a use finds stands in the window of the reading, if no use was later. -/
theorem Follows.standsAt (hf : Follows endpoint user limit ms l) (hl : 0 < limit.intervalMs)
    (hstart : Draw.BeginAt start (draws endpoint user ms))
    (hfirst : draws endpoint user ms = [] → now = start)
    (hnow : ∀ d ∈ draws endpoint user ms, d.reading ≤ now) :
    Draw.highest start (draws endpoint user ms) ≤ now ∧
      Bucket.StandsAt limit start (draws endpoint user ms) now
        (Bucket.ready (l.buckets.find? (bucketName endpoint user)) limit now) := by
  have hbegun : start ≤ now := by
    cases hds : draws endpoint user ms with
    | nil => exact Int.le_of_eq (congrArg Instant.nanos (hfirst hds)).symm
    | cons d ds =>
        rw [hds] at hstart hnow
        rw [← hstart d rfl]
        exact hnow d List.mem_cons_self
  have hhighest := Draw.highest_le hbegun hnow
  have hready := Bucket.StandsAt.ready (d := ⟨now, false, false⟩) (hf.used.standsAt hl hstart) hl
    (hstart.snoc hfirst)
  have hmax : max (Draw.highest start (draws endpoint user ms)) now = now := if_pos hhighest
  rw [Draw.highest_snoc, hmax] at hready
  exact ⟨hhighest, hready⟩

theorem draws_append (ms' : List (Moment Limiter Call Answer Empty)) :
    draws endpoint user (ms ++ ms') = draws endpoint user ms ++ draws endpoint user ms' :=
  List.filterMap_append

theorem draws_cons {d : Draw} (h : draw? endpoint user x = some d) :
    draws endpoint user (x :: ms) = d :: draws endpoint user ms :=
  List.filterMap_cons_some h

/-- A moment that looks was told what the limiter evaluates. -/
theorem evaluate_of_told (hx : Told ms x) (hwork : x.work = .call (.on endpoint user .evaluate))
    {decision : Decision} (hresult : x.result = .ended (.answers (.decided decision))) :
    (x.start.state.evaluate endpoint user x.start.now).map (·.1) = .ok decision := by
  cases hx with
  | dropped h => cases hresult.symm.trans h
  | begins k hk hcue h =>
      cases hwork.symm.trans hk
      rw [hresult, carryOut_evaluate] at h
      cases hd : x.start.state.evaluate endpoint user x.start.now with
      | error f =>
          rw [hd] at h
          cases h
      | ok r =>
          rw [hd] at h
          cases h
          rfl
  | resumes e u limit' hk hcue hwaits h => cases hwork.symm.trans hk

/-- The tokens that were given in a window to callers other than the one of a number. -/
def grantsToOthers (endpoint : String) (user : Option String) (limit : EndpointLimit)
    (start : Instant) (number : Nat) (k : Int)
    (ms : List (Moment Limiter Call Answer Empty)) : Nat :=
  ms.countP fun x => decide (x.number ≠ number) &&
    (draw? endpoint user x).any fun d => d.granted && decide (limit.window start d.reading = k)

theorem granted_of_draw? {d : Draw} (h : draw? endpoint user x = some d) :
    d.granted = granted x := by
  unfold draw? at h
  split at h
  · split at h
    · cases h
      rfl
    · cases h
  · cases h

theorem granted_eq_false (h : ∀ e, x.result ≠ .ended e) : granted x = false := by
  unfold granted
  split
  · exact absurd ‹_› (h _)
  · rfl

/-- A look is a use that asks for nothing. -/
theorem draw?_of_look (hwork : x.work = .call (.on endpoint user .evaluate)) {decision : Decision}
    (hresult : x.result = .ended (.answers (.decided decision))) :
    draw? endpoint user x = some ⟨x.start.now, false, false⟩ := by
  have hd : dropped x = false := by rw [dropped, hresult]
  have hgranted : granted x = false := by rw [granted, hresult]; rfl
  simp only [draw?, hwork, hd, hgranted, and_self, if_true]
  rfl

/-- To begin to wait is a use. -/
theorem draw?_ne_none {n : Nat} (h : WaitsFor n endpoint user limit x) :
    draw? endpoint user x ≠ none := by
  obtain ⟨w, hw⟩ := h.holdsOn.waits
  have hd : dropped x = false := by rw [dropped, hw]
  simp [draw?, h.work, hd]

/-- A caller that has got nothing has all grants to others before it. -/
theorem grantsIn_draws {number : Nat} {k : Int}
    (hstart : Draw.BeginAt start (draws endpoint user ms))
    (hclock : (draws endpoint user ms).Pairwise fun d d' => d.reading ≤ d'.reading)
    (hown : ∀ x ∈ ms, x.number = number → granted x = false) :
    limit.grantsIn start k (draws endpoint user ms) =
      grantsToOthers endpoint user limit start number k ms := by
  rw [EndpointLimit.grantsIn, Draw.timed_eq hclock (Draw.le_reading_of_beginAt hstart hclock),
    draws, List.countP_filterMap, grantsToOthers]
  refine List.countP_congr fun x hx => ?_
  cases hd : draw? endpoint user x with
  | none => simp
  | some d =>
      have hgranted := granted_of_draw? hd
      by_cases hn : x.number = number
      · simp [hn, hgranted, hown x hx hn]
      · simp [hn]

/-- A pair that is delayed has an empty bucket, and is told its next refill. -/
theorem Follows.hint (hf : Follows endpoint user limit ms l) (hl : 0 < limit.intervalMs)
    (hstart : Draw.BeginAt start (draws endpoint user ms))
    (hfirst : draws endpoint user ms = [] → now = start)
    (hnow : ∀ d ∈ draws endpoint user ms, d.reading ≤ now)
    (hdelay : (l.evaluate endpoint user now).map (·.1) = .ok (.delay earliest wait)) :
    earliest.InCalendar ∧ 0 < wait.nanos ∧ wait ≤ limit.interval ∧ wait = earliest.since now ∧
      Draw.highest start (draws endpoint user ms) ≤ now ∧
      ∃ b, Bucket.StandsAt limit start (draws endpoint user ms) now b ∧ b.tokens = 0 ∧
        b.nextRefill limit = earliest := by
  obtain ⟨hhighest, hstands⟩ := hf.standsAt hl hstart hfirst hnow
  rw [map_evaluate hf.stands] at hdelay
  obtain ⟨hempty, hcalendar, -⟩ := Bucket.of_decision_eq_delay hdelay
  have hbegun := hstands.lastRefill_le hl
  have hends := hstands.lt_nextRefill hl
  rw [Bucket.decision_of_empty hempty hends hcalendar] at hdelay
  cases hdelay
  refine ⟨hcalendar, ?_, ?_, rfl, hhighest, _, hstands, hempty, rfl⟩
  · exact Int.sub_pos.mpr hends
  · show _ - _ ≤ limit.interval.nanos
    dsimp only [Bucket.nextRefill]
    omega

/-- After a hint, as long as no token is given, all checks are refused until the instant that was
told, and allowed from then on. -/
theorem Follows.after_hint {ds : List Draw} {b : Bucket} {t : Instant}
    {ms : List (Moment Limiter Call Answer Empty)} (hf : Follows endpoint user limit ms l)
    (hcapacity : 0 < limit.capacity) (hl : 0 < limit.intervalMs)
    (hb : Bucket.StandsAt limit start ds t b) (hempty : b.tokens = 0)
    (hnext : (b.nextRefill limit).InCalendar) (ht : Draw.highest start ds ≤ t)
    {ds' : List Draw} (hds : draws endpoint user ms = ds ++ ds')
    (hnone : ∀ d ∈ ds', d.granted = false)
    (hlate : t ≤ now) (hstands : Bucket.StandsAt limit start (draws endpoint user ms) now
      (Bucket.ready (l.buckets.find? (bucketName endpoint user)) limit now)) :
    (now < b.nextRefill limit → l.Refuses endpoint user now (b.nextRefill limit)) ∧
      (b.nextRefill limit ≤ now → l.Allows endpoint user now) := by
  rw [hds] at hstands
  refine ⟨fun hnow => refuses_of_evaluate ?_, fun hnow => allows_of_evaluate ?_⟩
  · obtain ⟨hstill, hsame⟩ := hb.refused_until hempty hstands hl hnone hlate hnow
    rw [map_evaluate hf.stands, ← hsame]
    rw [← hsame] at hnow hnext
    exact Bucket.decision_of_empty hstill hnow hnext
  · rw [map_evaluate hf.stands]
    refine Bucket.decision_of_tokens ?_
    rw [hb.full_from ht hstands hl hnone hnow]
    exact hcapacity

section Hints

variable (h : workplace.Course (Workplace.idle l) ms s) (hlimit : l.limit? endpoint = some limit)
  (hl : 0 < limit.intervalMs) (hnew : l.buckets.find? (bucketName endpoint user) = none)
  (hspares : ∀ x ∈ ms, ∀ k, x.work = .call k → k.Spares endpoint user)
  (hstart : Draw.BeginAt start (draws endpoint user ms))
  (hclock : (draws endpoint user ms).Pairwise fun d d' => d.reading ≤ d'.reading)
include h hlimit hl hnew hspares hstart hclock

theorem course_hint (hcapacity : 0 < limit.capacity)
    {before after : List (Moment Limiter Call Answer Empty)} (hms : ms = before ++ x :: after)
    (hwork : x.work = .call (.on endpoint user .evaluate))
    (hresult : x.result = .ended (.answers (.decided (.delay earliest wait)))) :
    0 < wait.nanos ∧ wait ≤ limit.interval ∧ earliest.nanos = x.start.now.nanos + wait.nanos ∧
      ((∀ d ∈ draws endpoint user after, d.granted = false) →
        ∀ now, (∀ d ∈ draws endpoint user ms, d.reading ≤ now) →
          (now < earliest → s.state.Refuses endpoint user now earliest) ∧
          (earliest ≤ now → s.state.Allows endpoint user now)) := by
  subst hms
  have hf := used_of_course h hlimit hnew hspares
  obtain ⟨t, hbefore, hstep, -⟩ := h.split
  have hfbefore := used_of_course hbefore hlimit hnew fun y hy =>
    hspares y (List.mem_append_left _ hy)
  rw [← hstep.start_state] at hfbefore
  have hlook : draws endpoint user (before ++ x :: after) = draws endpoint user before ++
      ⟨x.start.now, false, false⟩ :: draws endpoint user after := by
    rw [draws_append, draws_cons (draw?_of_look hwork hresult)]
  rw [hlook] at hstart hclock ⊢
  obtain ⟨-, -, hsince⟩ := List.pairwise_append.mp hclock
  have hdelay := evaluate_of_told (told_of_step hbefore hstep) hwork hresult
  obtain ⟨hcalendar, hpositive, hinterval, rfl, hhighest, b, hstands, hempty, rfl⟩ :=
    hfbefore.hint hl hstart.left (fun hnil => by rw [hnil] at hstart; exact hstart _ rfl)
      (fun d hd => hsince d hd _ List.mem_cons_self) hdelay
  refine ⟨hpositive, hinterval, (add_sub_cancel _ _).symm, fun hnone now hnow => ?_⟩
  rw [← hlook] at hstart hnow
  refine hf.after_hint hcapacity hl hstands hempty hcalendar hhighest hlook ?_ ?_
    (hf.standsAt hl hstart (fun hnil => ?_) hnow).2
  · exact List.forall_mem_cons.mpr ⟨rfl, hnone⟩
  · rw [hlook] at hnow
    exact hnow _ (List.mem_append_right _ List.mem_cons_self)
  · rw [hlook] at hnil
    exact absurd hnil (by simp)

theorem course_resume {f : Flight Limiter Call Answer Empty} (hmem : f ∈ s.flights)
    (hwork : f.work = .call (.on endpoint user .acquire))
    {y : Waiting Limiter (Ending Answer Empty)} (hy : f.waiting = some y) (a : y.wait.Answer)
    (hnow : ∀ d ∈ draws endpoint user ms, d.reading ≤ now) :
    (∀ w, (y.resume a now s.state).result ≠ .paused (.waits w)) ∧
      ((y.resume a now s.state).result = .ended (.answers (.granted true)) ↔
        grantsToOthers endpoint user limit start f.number (limit.window start now) ms <
          limit.capacity) := by
  have hf := used_of_course h hlimit hnew hspares
  obtain ⟨e, u, limit', hwork', ⟨x, hx, hwaits⟩, hresume⟩ := course_resumes h hmem hy
  cases hwork.symm.trans hwork'
  obtain rfl : limit' = limit :=
    Option.some.inj (hwaits.holdsOn.limit.symm.trans (hf.stood x hx))
  have hmine : ∀ x ∈ ms, x.number = f.number → granted x = false := fun x hx hn =>
    granted_eq_false ((h.unanswered.1 f hmem).unanswered (by rw [hwork]; rfl) x hx hn)
  obtain ⟨-, hstands⟩ := hf.standsAt hl hstart
    (fun hnil => absurd (List.filterMap_eq_nil_iff.mp hnil x hx) (draw?_ne_none hwaits)) hnow
  rw [← grantsIn_draws hstart hclock hmine, hresume]
  refine ⟨takeAgain_not_waits, takeAgain_granted_iff.trans ?_⟩
  rw [← hstands.left]
  omega

end Hints

/-- What the hints of a course are worth, for a pair whose limit stands and whose bucket is not
dropped while the clock does not go back. A check that is refused tells a wait of more than nothing
and of an interval at most; until it is over all checks are refused, and told the same instant, and
then all are allowed, unless a token is given meanwhile. So a caller that asks for a token and finds
none waits for that long, but no longer than the limit allows, and does not wait again: it gets a
token if fewer than the capacity have been given to others in the window in which it is resumed. -/
theorem course_hints (h : workplace.Course (Workplace.idle l) ms s)
    (hlimit : l.limit? endpoint = some limit) (hcapacity : 0 < limit.capacity)
    (hl : 0 < limit.intervalMs)
    (hnew : l.buckets.find? (bucketName endpoint user) = none)
    (hspares : ∀ x ∈ ms, ∀ k, x.work = .call k → k.Spares endpoint user) (start : Instant)
    (hstart : Draw.BeginAt start (draws endpoint user ms))
    (hclock : (draws endpoint user ms).Pairwise fun d d' => d.reading ≤ d'.reading) :
    (∀ before x after earliest wait, ms = before ++ x :: after →
      x.work = .call (.on endpoint user .evaluate) →
      x.result = .ended (.answers (.decided (.delay earliest wait))) →
        0 < wait.nanos ∧ wait ≤ limit.interval ∧
        earliest.nanos = x.start.now.nanos + wait.nanos ∧
        ((∀ d ∈ draws endpoint user after, d.granted = false) →
          ∀ now, (∀ d ∈ draws endpoint user ms, d.reading ≤ now) →
            (now < earliest → s.state.Refuses endpoint user now earliest) ∧
            (earliest ≤ now → s.state.Allows endpoint user now))) ∧
    (∀ now earliest wait,
      (s.state.evaluate endpoint user now).map (·.1) = .ok (.delay earliest wait) →
        (acquire endpoint user now s.state).result =
          if (min wait limit.maxWait).isPositive = true then
            .paused (.waits (.sleep (min wait limit.maxWait)))
          else .ended false) ∧
    ∀ f ∈ s.flights, f.work = .call (.on endpoint user .acquire) → ∀ y, f.waiting = some y →
      ∀ a now, (∀ d ∈ draws endpoint user ms, d.reading ≤ now) →
        (∀ w, (y.resume a now s.state).result ≠ .paused (.waits w)) ∧
        ((y.resume a now s.state).result = .ended (.answers (.granted true)) ↔
          grantsToOthers endpoint user limit start f.number (limit.window start now) ms <
            limit.capacity) := by
  have hf := used_of_course h hlimit hnew hspares
  refine ⟨fun before x after earliest wait hms hwork hresult => ?_,
    fun now earliest wait hd => acquire_of_delay hf.stands hd,
    fun f hmem hwork y hy a now hnow => ?_⟩
  · exact course_hint h hlimit hl hnew hspares hstart hclock hcapacity hms hwork hresult
  · exact course_resume h hlimit hl hnew hspares hstart hclock hmem hwork hy a hnow

/-- Two calls a second, which may be waited for. -/
def twoASecond : Limiter := empty.configure "/x" (.new 2 1000 2000)

/-- Two callers take the tokens of a second, and a third one looks before a fourth one waits. -/
def fourCallers : List (Instant × Move Call) :=
  [(⟨0⟩, .ask (.on "/x" none .acquire)), (⟨300000000⟩, .ask (.on "/x" none .acquire)),
    (⟨400000000⟩, .ask (.on "/x" none .evaluate)), (⟨500000000⟩, .ask (.on "/x" none .acquire))]

def isCallOf (k : Call) : Work Call Empty → Bool
  | .call k' => decide (k' = k)
  | .job _ => false

def isDecided (d : Decision) : Result (Ending Answer Empty) → Bool
  | .ended (.answers (.decided d')) => decide (d' = d)
  | _ => false

theorem spares_of_isSparing (h : ∀ x ∈ ms, isSparing endpoint user x.work = true) :
    ∀ x ∈ ms, ∀ k, x.work = .call k → k.Spares endpoint user := by
  intro x hx k hk
  have hpass := h x hx
  rw [hk] at hpass
  exact of_decide_eq_true hpass

theorem eq_of_isCallOf {k : Call} {work : Work Call Empty} (h : isCallOf k work = true) :
    work = .call k := by
  cases work with
  | call k' => exact congrArg Work.call (of_decide_eq_true h)
  | job j => cases h

theorem eq_of_isDecided {d : Decision} {r : Result (Ending Answer Empty)}
    (h : isDecided d r = true) : r = .ended (.answers (.decided d)) := by
  unfold isDecided at h
  split at h
  · rw [of_decide_eq_true h]
  · cases h

theorem course_hints_twoASecond : ∃ (ms : List (Moment Limiter Call Answer Empty))
    (s : Scene Limiter Call Answer Empty), workplace.Course (Workplace.idle twoASecond) ms s ∧
      twoASecond.limit? "/x" = some (.new 2 1000 2000) ∧
      twoASecond.buckets.find? (bucketName "/x" none) = none ∧
      (∀ x ∈ ms, ∀ k, x.work = .call k → k.Spares "/x" none) ∧
      Draw.BeginAt ⟨0⟩ (draws "/x" none ms) ∧
      (draws "/x" none ms).Pairwise (fun d d' => d.reading ≤ d'.reading) ∧
      (draws "/x" none ms).map (·.granted) = [true, true, false, false] ∧
      s.state.Refuses "/x" none ⟨999999999⟩ ⟨1000000000⟩ ∧
      s.state.Allows "/x" none ⟨1000000000⟩ ∧
      ∃ f ∈ s.flights, ∃ y, f.waiting = some y ∧ ∀ a,
        (y.resume a ⟨1000000000⟩ s.state).result = .ended (.answers (.granted true)) := by
  let uses : List Draw := [⟨⟨0⟩, true, true⟩, ⟨⟨300000000⟩, true, true⟩,
    ⟨⟨400000000⟩, false, false⟩, ⟨⟨500000000⟩, true, false⟩]
  have hpasses : workplace.passes (Workplace.idle twoASecond) fourCallers 2
      (fun ms x ms' s => decide (draws "/x" none (ms ++ x :: ms') = uses) &&
        decide (draws "/x" none ms' = [⟨⟨500000000⟩, true, false⟩]) &&
        isCallOf (.on "/x" none .evaluate) x.work &&
        isDecided (.delay ⟨1000000000⟩ ⟨600000000⟩) x.result &&
        ((ms ++ x :: ms').all fun y => isSparing "/x" none y.work) &&
        s.flights.any fun f => isCallOf (.on "/x" none .acquire) f.work && f.waiting.isSome &&
          decide (grantsToOthers "/x" none (.new 2 1000 2000) ⟨0⟩ f.number 1 (ms ++ x :: ms') <
            2)) = true := by
    decide +kernel
  obtain ⟨ms, x, ms', s, hcourse, htest⟩ := Workplace.exists_course hpasses
  simp only [Bool.and_eq_true, decide_eq_true_eq, List.all_eq_true, List.any_eq_true,
    Option.isSome_iff_exists] at htest
  obtain ⟨⟨⟨⟨⟨huses, hafter⟩, hlook⟩, hdecided⟩, hall⟩, f, hmem, ⟨hcall, y, hy⟩, hfew⟩ := htest
  have hspares := spares_of_isSparing hall
  have hlimit : twoASecond.limit? "/x" = some (.new 2 1000 2000) := by decide +kernel
  have hnew : twoASecond.buckets.find? (bucketName "/x" none) = none := by decide +kernel
  have hstart : Draw.BeginAt ⟨0⟩ (draws "/x" none (ms ++ x :: ms')) := by
    rw [huses]
    rintro d hd
    obtain rfl := Option.some.inj hd
    rfl
  have hclock : (draws "/x" none (ms ++ x :: ms')).Pairwise
      fun d d' => d.reading ≤ d'.reading := by
    rw [huses]
    decide
  have hpast : ∀ t : Instant, 500000000 ≤ t.nanos →
      ∀ d ∈ draws "/x" none (ms ++ x :: ms'), d.reading ≤ t := by
    intro t ht d hd
    rw [huses] at hd
    have hlast : d.reading.nanos ≤ 500000000 := by
      revert d
      decide
    exact le_trans hlast ht
  obtain ⟨hhint, -, hresume⟩ :=
    course_hints hcourse hlimit (by decide) (by decide) hnew hspares ⟨0⟩ hstart hclock
  obtain ⟨-, -, -, hchecks⟩ := hhint ms x ms' _ _ rfl (eq_of_isCallOf hlook)
    (eq_of_isDecided hdecided)
  have hnone : ∀ d ∈ draws "/x" none ms', d.granted = false := by
    rw [hafter]
    decide
  refine ⟨_, s, hcourse, hlimit, hnew, hspares, hstart, hclock, by rw [huses]; rfl,
    (hchecks hnone _ (hpast _ (by decide))).1 (by decide),
    (hchecks hnone _ (hpast _ (by decide))).2 (by decide), f, hmem, y, hy, fun a => ?_⟩
  exact (hresume f hmem (eq_of_isCallOf hcall) y hy a _ (hpast _ (by decide))).2.mpr hfew

end Limiter

end ClientSession
