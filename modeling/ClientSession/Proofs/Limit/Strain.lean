import ClientSession.Proofs.Limit.Told

/-!
# Limits that outrun the calendar

An interval may be longer than what is left of the calendar. A bucket that runs empty under such a
limit has no instant of its next refill, and whoever asks for the time until then gets no answer.
Nothing else that a limiter computes leaves the calendar, whatever the limits are.

- `Bucket.refill_between`: a refill lies between the last one and now.
- `Limiter.course_refilledIn`: so in a course of callers all refills lie among the readings.
- `Limiter.course_faults_iff`: who gets no answer in a course, and when.
- `Limiter.not_course_answers`: somebody does not.
- `Limiter.course_answers`: nobody does not, while all intervals end within the calendar.
-/

namespace ClientSession

/-- The nanosecond at which the calendar begins. -/
def Instant.calendarStart : Int := firstSecond * Span.nanosPerSecond

/-- The nanosecond at which the calendar is over. -/
def Instant.calendarEnd : Int := (lastSecond + 1) * Span.nanosPerSecond

open Instant (calendarStart calendarEnd)

namespace Activity

variable {σ α β : Type} {c : σ} {now : Instant}

/-- What is made of an answer is no matter to whether there is one. -/
theorem isFault_map {x : Activity σ α} (f : α → β) :
    ((do return f (← x) : Activity σ β) now c).result.isFault = (x now c).result.isFault := by
  show (Run.bind _ (x now c) now).result.isFault = _
  cases x now c <;> rfl

theorem isFault_attempt (f : Instant → σ → Checked (α × σ)) :
    (attempt f now c).result.isFault = (f now c).toOption.isNone := by
  unfold attempt
  cases f now c <;> rfl

end Activity

open Activity (isFault_map isFault_attempt)

namespace Bucket

variable {b : Bucket} {l : EndpointLimit} {now : Instant} {first past : Int}

/-- The bucket is empty, and the calendar is over before its next refill. -/
def Stranded (b : Bucket) (l : EndpointLimit) : Prop :=
  b.tokens = 0 ∧ calendarEnd ≤ (b.nextRefill l).nanos

instance (b : Bucket) (l : EndpointLimit) : Decidable (b.Stranded l) :=
  inferInstanceAs (Decidable (_ ∧ _))

/-- The next refill cannot be too early for the calendar. -/
theorem not_inCalendar_iff (hb : b.lastRefill.InCalendar) :
    ¬(b.nextRefill l).InCalendar ↔ calendarEnd ≤ (b.nextRefill l).nanos := by
  have hlater := nanos_interval_nonneg l
  have hfirst := hb.1
  simp only [Instant.InCalendar, nextRefill, calendarEnd] at *
  omega

theorem timeToNext_eq_error (hempty : b.tokens = 0) (h : ¬(b.nextRefill l).InCalendar)
    (now : Instant) : b.timeToNext l now = .error .outsideCalendar := by
  have hplus? : b.lastRefill.plus? l.interval = none := if_neg h
  rw [timeToNext, if_neg (by omega), Instant.plus, hplus?]
  rfl

/-- How long to wait for a token can be told unless the bucket is stranded. -/
theorem shortage_isNone (hb : b.lastRefill.InCalendar) (now : Instant) :
    (b.shortage l now).toOption.isNone = decide (b.Stranded l) := by
  by_cases hempty : b.tokens = 0
  · rw [shortage, if_neg (by omega)]
    by_cases hnext : (b.nextRefill l).InCalendar
    · obtain ⟨wait, hwait, -⟩ := timeToNext_of_inCalendar hnext now
      have hstranded : ¬b.Stranded l := fun h => (not_inCalendar_iff hb).mpr h.2 hnext
      rw [hwait, decide_eq_false hstranded]
      rfl
    · have hstranded : b.Stranded l := ⟨hempty, (not_inCalendar_iff hb).mp hnext⟩
      rw [timeToNext_eq_error hempty hnext, decide_eq_true hstranded]
      rfl
  · have hstranded : ¬b.Stranded l := fun h => hempty h.1
    rw [shortage, if_pos (Nat.pos_of_ne_zero hempty), decide_eq_false hstranded]
    rfl

/-- Whoever can be told how long to wait can be told until when. -/
theorem decision_isNone_eq (hnow : now.InCalendar) :
    (b.decision l now).toOption.isNone = (b.shortage l now).toOption.isNone := by
  by_cases hempty : b.tokens = 0
  · rw [decision, shortage, if_neg (by omega), if_neg (by omega)]
    by_cases hnext : (b.nextRefill l).InCalendar
    · obtain ⟨wait, next, hwait, hover⟩ := plus_timeToNext hnow hnext
      rw [hwait]
      simp only [bind, Except.bind, hover]
      rfl
    · rw [timeToNext_eq_error hempty hnext]
      rfl
  · rw [decision, shortage, if_pos (Nat.pos_of_ne_zero hempty),
      if_pos (Nat.pos_of_ne_zero hempty)]
    rfl

/-- The bucket was refilled from the one nanosecond on and before the other. -/
def RefilledIn (first past : Int) (b : Bucket) : Prop :=
  first ≤ b.lastRefill.nanos ∧ b.lastRefill.nanos < past

theorem lastStart_between (hdue : b.Due l now) :
    b.lastRefill.nanos ≤ (b.lastStart l now).nanos ∧ (b.lastStart l now).nanos ≤ now.nanos := by
  have hpassed : b.lastRefill.nanos < now.nanos := hdue.1
  unfold lastStart
  split
  · exact ⟨Int.le_of_lt hpassed, Int.le_refl _⟩
  · rename_i hzero
    have hbegun := Int.ediv_mul_le (now.nanos - b.lastRefill.nanos) hzero
    have hcount : 0 ≤ (now.nanos - b.lastRefill.nanos) / l.interval.nanos * l.interval.nanos :=
      Int.mul_nonneg (Int.ediv_nonneg (Int.sub_nonneg.mpr (Int.le_of_lt hpassed))
        (nanos_interval_nonneg l)) (nanos_interval_nonneg l)
    constructor <;> dsimp only <;> omega

/-- The instant of a refill does not go back, and not beyond now. -/
theorem refill_between (b : Bucket) (l : EndpointLimit) (now : Instant) :
    b.lastRefill.nanos ≤ (b.refill l now).lastRefill.nanos ∧
      (b.refill l now).lastRefill.nanos ≤ max b.lastRefill.nanos now.nanos := by
  rw [refill_eq]
  split
  · obtain ⟨hfrom, hto⟩ := lastStart_between ‹b.Due l now›
    exact ⟨hfrom, le_trans hto (le_max_right _ _)⟩
  · exact ⟨Int.le_refl _, le_max_left _ _⟩

/-- A bucket that is found ready was refilled among its refills so far and now. -/
theorem ready_refilledIn {found : Option Bucket} (hb : ∀ b ∈ found, b.RefilledIn first past)
    (hnow : first ≤ now.nanos ∧ now.nanos < past) : (ready found l now).RefilledIn first past := by
  have hfound : (found.getD (full l now)).RefilledIn first past := by
    cases found with
    | none => exact hnow
    | some b => exact hb b rfl
  obtain ⟨hfrom, hto⟩ := (found.getD (full l now)).refill_between l now
  exact ⟨le_trans hfound.1 hfrom, lt_of_le_of_lt hto (max_lt hfound.2 hnow.2)⟩

end Bucket

namespace Limiter

variable {l l' : Limiter} {endpoint name : String} {user : Option String} {limit : EndpointLimit}
  {now : Instant} {first past : Int}

/-! ## Who gets no answer -/

/-- The pair's bucket is stranded under the limit when it is found. -/
def StrandedAt (l : Limiter) (endpoint : String) (user : Option String) (limit : EndpointLimit)
    (now : Instant) : Prop :=
  (Bucket.ready (l.buckets.find? (bucketName endpoint user)) limit now).Stranded limit

instance (l : Limiter) (endpoint : String) (user : Option String) (limit : EndpointLimit)
    (now : Instant) : Decidable (l.StrandedAt endpoint user limit now) :=
  inferInstanceAs (Decidable (Bucket.Stranded _ _))

/-- All buckets were refilled from the one nanosecond on and before the other. -/
def RefilledIn (first past : Int) (l : Limiter) : Prop :=
  ∀ name, ∀ b ∈ l.buckets.find? name, b.RefilledIn first past

theorem refilledIn_empty (first past : Int) : empty.RefilledIn first past :=
  fun _ _ hb => nomatch hb

/-- Looks that decide get no answer where `evaluate` gets none. -/
theorem look_isFault {purpose : Purpose} (hacquire : purpose ≠ .acquire)
    (havailable : purpose ≠ .available) :
    (respond endpoint user purpose now l).result.isFault =
      (l.evaluate endpoint user now).toOption.isNone := by
  have hlook : ∀ {α : Type} (f : Instant → Limiter → Checked (α × Limiter)) (g : α → Answer),
      ((do return g (← Activity.attempt f) : Activity Limiter Answer) now l).result.isFault =
        (f now l).toOption.isNone := fun f g => (isFault_map g).trans (isFault_attempt f)
  have htold : ∀ {α : Type} (g : Decision → α) (x : Checked (Decision × Limiter)),
      (do let d ← x; return (g d.1, d.2) : Checked (α × Limiter)).toOption.isNone =
        x.toOption.isNone := fun g x => by cases x <;> rfl
  cases purpose with
  | acquire => exact absurd rfl hacquire
  | mayCall =>
      let g : Decision → Bool := fun d => decide (d = .allow)
      exact (hlook _ _).trans (htold g _)
  | evaluate => exact hlook _ _
  | remainingWait => exact (hlook _ _).trans (htold waitOf _)
  | available => exact absurd rfl havailable

theorem available_isFault : (respond endpoint user .available now l).result.isFault = false :=
  isFault_map _

/-- Without a limit every call on an endpoint is answered. -/
theorem respond_isFault_free (h : l.limit? endpoint = none) (purpose : Purpose) :
    (respond endpoint user purpose now l).result.isFault = false := by
  by_cases hacquire : purpose = .acquire
  · subst hacquire
    refine (isFault_map _).trans ?_
    rw [acquire_free h]
    rfl
  by_cases havailable : purpose = .available
  · rw [havailable, available_isFault]
  rw [look_isFault hacquire havailable, evaluate, h]
  rfl

section Stretch

variable (hl : l.RefilledIn calendarStart calendarEnd) (hnow : now.InCalendar)
include hl hnow

theorem tryTake_isNone : (l.tryTake endpoint user limit now).toOption.isNone =
    decide (l.StrandedAt endpoint user limit now) := by
  have hready := Bucket.ready_refilledIn (l := limit) (hl (bucketName endpoint user)) hnow
  refine Eq.trans ?_ (Bucket.shortage_isNone hready now)
  rw [tryTake_eq]
  dsimp only
  cases Bucket.shortage _ limit now <;> rfl

theorem evaluate_isNone (h : l.limit? endpoint = some limit) :
    (l.evaluate endpoint user now).toOption.isNone =
      decide (l.StrandedAt endpoint user limit now) := by
  have hready := Bucket.ready_refilledIn (l := limit) (hl (bucketName endpoint user)) hnow
  refine Eq.trans ?_ (Bucket.shortage_isNone hready now)
  rw [← Bucket.decision_isNone_eq hnow, evaluate_eq h]
  dsimp only
  cases Bucket.decision _ limit now <;> rfl

/-- Who has waited gets no answer if the bucket is stranded then. -/
theorem takeAgain_isFault : (takeAgain endpoint user limit now l).result.isFault =
    decide (l.StrandedAt endpoint user limit now) :=
  calc (takeAgain endpoint user limit now l).result.isFault
    _ = (l.tryTake endpoint user limit now).toOption.isNone :=
        (isFault_map _).trans (isFault_attempt _)
    _ = decide (l.StrandedAt endpoint user limit now) := tryTake_isNone hl hnow

/-- Who asks for a token gets no answer if the bucket is stranded at the first attempt. A second
attempt in the same stretch finds the bucket as the first. -/
theorem acquire_isFault (h : l.limit? endpoint = some limit) :
    (acquire endpoint user now l).result.isFault =
      decide (l.StrandedAt endpoint user limit now) := by
  rw [acquire_limited h, ← tryTake_isNone hl hnow]
  cases htry : l.tryTake endpoint user limit now with
  | error f => rfl
  | ok r =>
      obtain ⟨_ | wait, l₁⟩ := r
      · rfl
      · dsimp only
        by_cases hpositive : (min wait limit.maxWait).isPositive = true
        · rw [afterTry_waits hpositive]
          rfl
        · have htold := tryTake_told (tryTake_uses htry).ready_eq
          rw [afterTry_goesOn hpositive, takeAgain_eq]
          cases hagain : l₁.tryTake endpoint user limit now with
          | error f =>
              rw [hagain, htry] at htold
              cases htold
          | ok r => rfl

/-- A call on an endpoint with a limit gets no answer if the bucket is stranded, unless it only asks
for the number of tokens. -/
theorem respond_isFault (h : l.limit? endpoint = some limit) (purpose : Purpose) :
    (respond endpoint user purpose now l).result.isFault = true ↔
      purpose ≠ .available ∧ l.StrandedAt endpoint user limit now := by
  by_cases havailable : purpose = .available
  · subst havailable
    rw [available_isFault]
    exact iff_of_false Bool.false_ne_true fun h => h.1 rfl
  have hstranded : (respond endpoint user purpose now l).result.isFault =
      decide (l.StrandedAt endpoint user limit now) := by
    by_cases hacquire : purpose = .acquire
    · subst hacquire
      exact (isFault_map _).trans (acquire_isFault hl hnow h)
    · rw [look_isFault hacquire havailable, evaluate_isNone hl hnow h]
  rw [hstranded, decide_eq_true_eq, and_iff_right havailable]

end Stretch

/-- The call asks when there is a token in a bucket that is stranded. -/
def Call.Strands : Call → Limiter → Instant → Prop
  | .on endpoint user purpose, l, now => purpose ≠ .available ∧
      ∃ limit ∈ l.limit? endpoint, l.StrandedAt endpoint user limit now
  | _, _, _ => False

instance : (k : Call) → (l : Limiter) → (now : Instant) → Decidable (k.Strands l now)
  | .on _ _ _, _, _ => inferInstanceAs (Decidable (_ ∧ _))
  | .configure _ _, _, _ => inferInstanceAs (Decidable False)
  | .reset _ _, _, _ => inferInstanceAs (Decidable False)
  | .resetAll, _, _ => inferInstanceAs (Decidable False)

/-- These are the calls that get no answer. -/
theorem call_isFault (hl : l.RefilledIn calendarStart calendarEnd) (hnow : now.InCalendar)
    (k : Call) : (workplace.carryOut (.call k) now l).result.isFault = true ↔ k.Strands l now := by
  have hserve : (workplace.carryOut (.call k) now l).result.isFault =
      (serve k now l).result.isFault := isFault_map _
  rw [hserve]
  cases k with
  | configure endpoint limit => exact iff_of_false Bool.false_ne_true id
  | reset endpoint user => exact iff_of_false Bool.false_ne_true id
  | resetAll => exact iff_of_false Bool.false_ne_true id
  | on endpoint user purpose =>
      rw [serve, Call.Strands]
      cases hlimit : l.limit? endpoint with
      | none =>
          rw [respond_isFault_free hlimit]
          exact iff_of_false Bool.false_ne_true fun ⟨_, _, h, _⟩ => nomatch h
      | some limit =>
          rw [respond_isFault hl hnow hlimit]
          simp only [Option.mem_def, Option.some.injEq, exists_eq_left']

/-! ## Courses -/

section RefilledIn

variable (hl : l.RefilledIn first past)
include hl

/-- A use refills the bucket now if at all. -/
theorem RefilledIn.uses {asks granted : Bool} (hnow : first ≤ now.nanos ∧ now.nanos < past)
    (huses : l.Uses name limit now asks granted l') : l'.RefilledIn first past := by
  intro n b hb
  by_cases hn : n = name
  · subst hn
    rw [huses.own] at hb
    obtain rfl := Option.some.inj hb
    have hready := Bucket.ready_refilledIn (l := limit) (hl n) hnow
    rwa [Bucket.RefilledIn, Bucket.draw_lastRefill]
  · rw [huses.other n hn] at hb
    exact hl n b hb

theorem RefilledIn.configure (endpoint : String) (limit : EndpointLimit) :
    (l.configure endpoint limit).RefilledIn first past := by
  intro n b hb
  rw [find?_configure] at hb
  split at hb
  · cases hb
  · exact hl n b hb

theorem RefilledIn.reset (endpoint : String) (user : Option String) :
    (l.reset endpoint user).RefilledIn first past := by
  intro n b hb
  rw [Limiter.reset, Table.find?_erase] at hb
  split at hb
  · cases hb
  · exact hl n b hb

end RefilledIn

variable {m : Memo} {ms : List (Moment Limiter Call Answer Empty)}
  {s : Scene Limiter Call Answer Empty} {x : Moment Limiter Call Answer Empty}

/-- What one moment leaves was refilled before it or at it. -/
theorem RefilledIn.effect (hx : Effect m x) (hl : x.start.state.RefilledIn first past)
    (hnow : first ≤ x.start.now.nanos ∧ x.start.now.nanos < past) :
    x.left.RefilledIn first past := by
  cases hx with
  | dropped hd hcue hleft => rwa [hleft]
  | on endpoint user purpose hwork hd hacts =>
      cases hacts with
      | free hcue hlimit hleft hgranted => rwa [hleft]
      | held limit hlimit hpurpose huses => exact hl.uses hnow huses
  | configure endpoint limit hwork hleft =>
      rw [hleft]
      exact hl.configure endpoint limit
  | reset endpoint user hwork hleft =>
      rw [hleft]
      exact hl.reset endpoint user
  | resetAll hwork hleft =>
      rw [hleft]
      exact fun _ _ hb => nomatch hb

/-- In a course all buckets are refilled among the readings. -/
theorem course_refilledIn (h : workplace.Course (Workplace.idle l) ms s)
    (hl : l.RefilledIn first past)
    (hms : ∀ x ∈ ms, first ≤ x.start.now.nanos ∧ x.start.now.nanos < past) :
    s.state.RefilledIn first past := by
  refine course_induction (A := fun _ l => l.RefilledIn first past) h hl ?_
  rintro before x after m rfl - hx hl
  exact hl.effect hx (hms x (by simp))

/-- Who waits gets no answer if the bucket is stranded under the limit that it holds on to. -/
theorem resume_isFault (h : workplace.Course (Workplace.idle l) ms s)
    (hl : s.state.RefilledIn calendarStart calendarEnd) (hnow : now.InCalendar)
    {f : Flight Limiter Call Answer Empty} (hf : f ∈ s.flights)
    {y : Waiting Limiter (Ending Answer Empty)} (hy : f.waiting = some y) :
    ∃ endpoint user limit, (∃ x ∈ ms, WaitsFor f.number endpoint user limit x) ∧
      ∀ a, (y.resume a now s.state).result.isFault = true ↔
        s.state.StrandedAt endpoint user limit now := by
  obtain ⟨endpoint, user, limit, -, hwaits, hresume⟩ := course_resumes h hf hy
  refine ⟨endpoint, user, limit, hwaits, fun a => ?_⟩
  have hagain : (asWork (takeAgain endpoint user limit) now s.state).result.isFault =
      (takeAgain endpoint user limit now s.state).result.isFault :=
    (isFault_map _).trans (isFault_map _)
  rw [hresume, hagain, takeAgain_isFault hl hnow, decide_eq_true_eq]

/-- In a course at readings of the calendar every refill is at an instant of the calendar. A call that
begins gets no answer if and only if it asks when there is a token in a bucket that is stranded, and
one that has waited if and only if its bucket is stranded under the limit that it holds on to. -/
theorem course_faults_iff (h : workplace.Course (Workplace.idle l) ms s)
    (hl : l.RefilledIn calendarStart calendarEnd) (hms : ∀ x ∈ ms, x.start.now.InCalendar)
    (hnow : now.InCalendar) :
    (∀ name limit,
      (Bucket.ready (s.state.buckets.find? name) limit now).lastRefill.InCalendar) ∧
    (∀ k : Call, (workplace.carryOut (.call k) now s.state).result.isFault = true ↔
      k.Strands s.state now) ∧
    ∀ f ∈ s.flights, ∀ y, f.waiting = some y → ∃ endpoint user limit,
      (∃ x ∈ ms, WaitsFor f.number endpoint user limit x) ∧
        ∀ a, (y.resume a now s.state).result.isFault = true ↔
          s.state.StrandedAt endpoint user limit now := by
  have hrefilled := course_refilledIn h hl hms
  exact ⟨fun name limit => Bucket.ready_refilledIn (hrefilled name) hnow,
    call_isFault hrefilled hnow, fun f hf y hy => resume_isFault h hrefilled hnow hf hy⟩

/-- A limit of one call in the time that is left of the calendar on the first of June 2025 at noon,
but for a second. -/
def restOfCalendar : EndpointLimit := .new 1 251653521599000 5000

/-- Two callers ask for a token at noon, and the second one waits. Two seconds later the bucket is
reset, and a third caller takes the token. -/
def resetMeanwhile : List (Instant × Move Call) :=
  [(⟨1748779200000000000⟩, .ask (.configure "/x" restOfCalendar)),
    (⟨1748779200000000000⟩, .ask (.on "/x" none .acquire)),
    (⟨1748779200000000000⟩, .ask (.on "/x" none .acquire)),
    (⟨1748779202000000000⟩, .ask (.reset "/x" none)),
    (⟨1748779202000000000⟩, .ask (.on "/x" none .acquire))]

/-- The wait of a flight cannot end at an instant. -/
def stuck (now : Instant) (l : Limiter) (f : Flight Limiter Call Answer Empty) : Bool :=
  f.waiting.any fun y => (y.resume
    (Wait.answer (.ok ⟨200, Table.empty, ""⟩) (.error .loginRequired) y.wait) now l).result.isFault

/-- Neither the caller that waits nor who asks whether a call may be made gets an answer then. -/
theorem course_faults_iff_resetMeanwhile : ∃ (ms : List (Moment Limiter Call Answer Empty))
    (s : Scene Limiter Call Answer Empty) (now : Instant),
      workplace.Course (Workplace.idle empty) ms s ∧
      empty.RefilledIn calendarStart calendarEnd ∧ (∀ x ∈ ms, x.start.now.InCalendar) ∧
      now.InCalendar ∧ (∃ f ∈ s.flights, stuck now s.state f = true) ∧
      (workplace.carryOut (.call (.on "/x" none .mayCall)) now s.state).result.isFault = true ∧
      (workplace.carryOut (.call (.on "/x" none .available)) now s.state).result.isFault = false ∧
      ∀ f ∈ s.flights, ∀ y, f.waiting = some y → ∃ endpoint user limit,
        (∃ x ∈ ms, WaitsFor f.number endpoint user limit x) ∧
          ∀ a, (y.resume a now s.state).result.isFault = true ↔
            s.state.StrandedAt endpoint user limit now := by
  let now : Instant := ⟨1748779205000000000⟩
  have hpasses : workplace.passes (Workplace.idle empty) resetMeanwhile 0
      (fun ms x ms' s => decide ((∀ y ∈ ms ++ x :: ms', y.start.now.InCalendar) ∧
        (Call.on "/x" none .mayCall).Strands s.state now ∧
        ¬(Call.on "/x" none .available).Strands s.state now) &&
        s.flights.any (stuck now s.state)) = true := by
    decide +kernel
  obtain ⟨ms, x, ms', s, hcourse, htest⟩ := Workplace.exists_course hpasses
  rw [Bool.and_eq_true, decide_eq_true_eq, List.any_eq_true] at htest
  obtain ⟨⟨hms, hstranded, hnot⟩, hstuck⟩ := htest
  have hempty := refilledIn_empty calendarStart calendarEnd
  have hnow : now.InCalendar := by decide
  obtain ⟨-, hcalls, hwaits⟩ := course_faults_iff hcourse hempty hms hnow
  exact ⟨_, s, now, hcourse, hempty, hms, hnow, hstuck, (hcalls _).mpr hstranded,
    Bool.eq_false_iff.mpr fun hfault => hnot ((hcalls _).mp hfault), hwaits⟩

/-- A call is taken under a limit of one in more than thirty thousand years, and at the same instant
somebody asks whether another may be made. -/
theorem not_course_answers : ¬∀ (ms : List (Moment Limiter Call Answer Empty))
    (s : Scene Limiter Call Answer Empty) (k : Call),
    workplace.Course (Workplace.idle empty) ms s →
      (∀ x ∈ ms, x.start.now = ⟨1748779200000000000⟩) →
        (workplace.carryOut (.call k) ⟨1748779200000000000⟩ s.state).result.isFault = false := by
  intro hclaim
  have hpasses : workplace.passes (Workplace.idle empty)
      [(⟨1748779200000000000⟩, .ask (.configure "/x" (.new 1 1000000000000000 0))),
        (⟨1748779200000000000⟩, .ask (.on "/x" none .acquire))] 0
      (fun ms x ms' s => decide ((∀ y ∈ ms ++ x :: ms', y.start.now = ⟨1748779200000000000⟩) ∧
        (workplace.carryOut (.call (.on "/x" none .mayCall)) ⟨1748779200000000000⟩
          s.state).result.isFault = true)) = true := by
    decide +kernel
  obtain ⟨ms, x, ms', s, hcourse, htest⟩ := Workplace.exists_course hpasses
  obtain ⟨hms, hfault⟩ := of_decide_eq_true htest
  exact absurd (hclaim _ s (.on "/x" none .mayCall) hcourse hms)
    (Bool.eq_false_iff.not.mpr (not_not.mpr hfault))

/-! ## While there is time -/

theorem RefilledIn.mono {first' past' : Int} (hl : l.RefilledIn first past) (hfirst : first' ≤ first)
    (hpast : past ≤ past') : l.RefilledIn first' past' := fun name b hb =>
  ⟨le_trans hfirst (hl name b hb).1, lt_of_lt_of_le (hl name b hb).2 hpast⟩

/-- No bucket is stranded while an interval that begins among the readings ends in the calendar. -/
theorem RefilledIn.not_strandedAt (hl : l.RefilledIn first past)
    (hnow : first ≤ now.nanos ∧ now.nanos < past)
    (hends : past + limit.interval.nanos ≤ calendarEnd) :
    ¬l.StrandedAt endpoint user limit now := by
  rintro ⟨-, hover⟩
  have hready := (Bucket.ready_refilledIn (l := limit) (hl (bucketName endpoint user)) hnow).2
  dsimp only [Bucket.nextRefill] at hover
  omega

/-- Under limits whose intervals, begun among the readings, end in the calendar, everybody gets an
answer, whether a call begins or has waited. -/
theorem course_answers (h : workplace.Course (Workplace.idle l) ms s)
    (hl : l.RefilledIn first past) (hfirst : calendarStart ≤ first) (hpast : past ≤ calendarEnd)
    (hms : ∀ x ∈ ms, first ≤ x.start.now.nanos ∧ x.start.now.nanos < past)
    (hnow : first ≤ now.nanos ∧ now.nanos < past)
    (hends : ∀ endpoint limit, (s.state.limit? endpoint = some limit ∨
      ∃ x ∈ ms, x.start.state.limit? endpoint = some limit) →
        past + limit.interval.nanos ≤ calendarEnd) :
    (∀ k : Call, (workplace.carryOut (.call k) now s.state).result.isFault = false) ∧
    ∀ f ∈ s.flights, ∀ y, f.waiting = some y →
      ∀ a, (y.resume a now s.state).result.isFault = false := by
  have hrefilled := course_refilledIn h hl hms
  have hcalendar : s.state.RefilledIn calendarStart calendarEnd := hrefilled.mono hfirst hpast
  have hreading : now.InCalendar := ⟨le_trans hfirst hnow.1, lt_of_lt_of_le hnow.2 hpast⟩
  refine ⟨fun k => Bool.eq_false_iff.mpr fun hfault => ?_,
    fun f hf y hy a => Bool.eq_false_iff.mpr fun hfault => ?_⟩
  · have hstrands := (call_isFault hcalendar hreading k).mp hfault
    cases k with
    | on endpoint user purpose =>
        obtain ⟨-, limit, hlimit, hstranded⟩ := hstrands
        exact hrefilled.not_strandedAt hnow (hends _ _ (.inl hlimit)) hstranded
    | configure endpoint limit => exact hstrands
    | reset endpoint user => exact hstrands
    | resetAll => exact hstrands
  · obtain ⟨endpoint, user, limit, ⟨x, hx, hwait⟩, hagain⟩ :=
      resume_isFault h hcalendar hreading hf hy
    exact hrefilled.not_strandedAt hnow (hends _ _ (.inr ⟨x, hx, hwait.holdsOn.limit⟩))
      ((hagain a).mp hfault)

end Limiter

end ClientSession
