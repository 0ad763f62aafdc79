import ClientSession.Proofs.Limit.Strain
import ClientSession.Proofs.Telemetry.Deferral

/-!
# Distances that outrun the calendar

A request event that joins the line has a send deferred until the distance to the last batch has
been kept. The configured distance may be longer than what is left of the calendar after that batch.
Then there is no such instant, and the caller that reported the event gets no answer. Nobody else
fails to get one, whatever the sink does and whether or not there are tasks.

- `Batcher.trackRequest_isNone_iff`: when an event cannot be taken.
- `Batcher.strains_keptBy`: nothing but the first stretch of a report faults.
- `Batcher.lastSend_of_course`: the last send is the last batch that was drained since everything
  was discarded.
- `Batcher.report_isFault_iff`: so who gets no answer in a course, and when.
- `Batcher.not_reports_answered`: somebody does not.
- `Batcher.reports_answered`: everybody does, while all distances end within the calendar.
-/

namespace ClientSession

namespace Batcher

open Activity Workplace
open Instant (calendarStart calendarEnd)

variable {b : Batcher} {now : Instant} {e : Event}

/-! ## Which events cannot be taken -/

/-- The event is to be taken: its calls are reported, and it is neither a success in the background
nor a repetition. -/
def Wants (b : Batcher) (e : Event) (now : Instant) : Prop :=
  b.excludes e.name = false ∧ (b.inBackground && e.success) = false ∧
    (b.forgetOld now).recent.contains (b.attributed e).dedupKey = false

instance (b : Batcher) (e : Event) (now : Instant) : Decidable (b.Wants e now) :=
  inferInstanceAs (Decidable (_ ∧ _ ∧ _))

/-- The calendar is over before the distance to the last send has been kept. -/
def Outrun (b : Batcher) : Prop :=
  ∃ last, b.lastSend = some last ∧ calendarEnd ≤ last.nanos + b.config.minSendInterval.nanos

theorem nanos_minSendInterval_nonneg (config : BatcherConfig) :
    0 ≤ config.minSendInterval.nanos := by
  have hcount : (0 : Int) ≤ min (config.minSendIntervalSecs : Int) Span.maxCount :=
    le_min (Int.natCast_nonneg _) (Int.natCast_nonneg _)
  exact Int.mul_nonneg hcount (by decide)

section LastSend

variable (hlast : ∀ last, b.lastSend = some last → last.InCalendar)
include hlast

theorem sendDelay_isNone_iff (now : Instant) :
    (b.sendDelay now).toOption.isNone = true ↔ b.Outrun := by
  unfold sendDelay Outrun
  cases h : b.lastSend with
  | none => exact iff_of_false Bool.false_ne_true fun ⟨_, hnone, _⟩ => nomatch hnone
  | some last =>
      have hstart := (hlast last h).1
      have hforward := nanos_minSendInterval_nonneg b.config
      by_cases hin : (⟨last.nanos + b.config.minSendInterval.nanos⟩ : Instant).InCalendar
      · have hplus : last.plus b.config.minSendInterval =
            .ok ⟨last.nanos + b.config.minSendInterval.nanos⟩ := by
          rw [Instant.plus, Instant.plus?, if_pos hin]
        dsimp only
        rw [hplus]
        refine iff_of_false Bool.false_ne_true ?_
        rintro ⟨last', hsome, hover⟩
        obtain rfl := Option.some.inj hsome
        exact absurd hin.2 (Int.not_lt.mpr hover)
      · have hplus : last.plus b.config.minSendInterval = .error .outsideCalendar := by
          rw [Instant.plus, Instant.plus?, if_neg hin]
        dsimp only
        rw [hplus]
        refine iff_of_true rfl ⟨last, rfl, ?_⟩
        simp only [Instant.InCalendar, calendarEnd] at *
        omega

theorem deferSend_isNone_iff (now : Instant) :
    (b.deferSend now).toOption.isNone = true ↔ b.pendingSend = none ∧ b.Outrun := by
  rw [← sendDelay_isNone_iff hlast now]
  unfold deferSend
  cases hpending : b.pendingSend with
  | some task => exact iff_of_false Bool.false_ne_true fun h => nomatch h.1
  | none =>
      cases b.sendDelay now with
      | error f => exact iff_of_true rfl ⟨rfl, rfl⟩
      | ok wait => exact iff_of_false Bool.false_ne_true fun h => nomatch h.2

/-- An event cannot be taken if and only if it is to be, the line is not full with it, no send is
deferred and the distance to the last send outruns the calendar. -/
theorem trackRequest_isNone_iff (e : Event) (now : Instant) :
    (b.trackRequest e now).toOption.isNone = true ↔
      b.Wants e now ∧ b.requests.length + 1 < max b.config.requestMaxQueue 1 ∧
        b.pendingSend = none ∧ b.Outrun := by
  unfold trackRequest Wants
  by_cases hskip : (b.excludes e.name || (b.inBackground && e.success)) = true
  · rw [if_pos hskip]
    refine iff_of_false Bool.false_ne_true fun ⟨⟨hreported, hseen, _⟩, _⟩ => ?_
    rw [hreported, hseen] at hskip
    cases hskip
  rw [if_neg hskip]
  obtain ⟨hreported, hseen⟩ := Bool.or_eq_false_iff.mp (Bool.eq_false_iff.mpr hskip)
  dsimp only
  by_cases hagain : (b.forgetOld now).recent.contains (b.attributed e).dedupKey = true
  · rw [if_pos hagain]
    refine iff_of_false Bool.false_ne_true fun ⟨⟨_, _, hnew⟩, _⟩ => ?_
    rw [hnew] at hagain
    cases hagain
  rw [if_neg hagain, and_iff_right ⟨hreported, hseen, Bool.eq_false_iff.mpr hagain⟩]
  have hlength : (b.requests ++ [b.attributed e]).length = b.requests.length + 1 := by simp
  by_cases hfull : max b.config.requestMaxQueue 1 ≤ b.requests.length + 1
  · rw [if_pos (by rw [← hlength] at hfull; exact hfull)]
    exact iff_of_false Bool.false_ne_true fun h => absurd hfull (Nat.not_le.mpr h.1)
  · rw [if_neg (by rw [← hlength] at hfull; exact hfull), and_iff_right (Nat.not_le.mp hfull)]
    -- What the event changes of the batcher is no matter to the deferred send.
    let joined : Batcher := { b.forgetOld now with
      recent := (b.forgetOld now).recent.insert (b.attributed e).dedupKey now
      requests := b.requests ++ [b.attributed e] }
    refine Iff.trans ?_ (deferSend_isNone_iff (b := joined) hlast now)
    show (Except.toOption (joined.deferSend now >>= fun b => .ok (true, b))).isNone = true ↔ _
    cases joined.deferSend now <;> rfl

end LastSend

/-! ## What never faults -/

/-- No stretch faults. -/
def Unfailing : Pact Unit Batcher := fun _ _ p _ _ => p ≠ .faults

/-- No stretch of the activity faults. -/
abbrev Endures {α : Type} (x : Activity Batcher α) : Prop :=
  Maintains Unfailing (fun _ _ _ => True) x

theorem endures_modify (f : Batcher → Batcher) :
    Endures (modify f : Activity Batcher PUnit) := triple_modify fun _ _ _ h => h

theorem endures_step {α : Type} (f : Instant → Batcher → α × Batcher) :
    Endures (Activity.step f) := triple_step fun _ _ _ h => h

theorem endures_await (w : Wait) : Endures (Activity.await w) :=
  triple_await fun _ _ _ _ => ⟨(), nofun, fun _ _ => nofun, fun _ _ _ => trivial⟩

theorem endures_sleep (span : Span) : Endures (Activity.sleep span) :=
  Maintains.ite (endures_await _) (maintains_pure ())

theorem endures_send (batch : Batch) : Endures (send batch) := by
  refine Maintains.bind maintains_get fun b => ?_
  cases b.sink with
  | service accepts => exact endures_await _
  | ingest profile csrf =>
      refine Maintains.bind (endures_step _) fun request => ?_
      cases request with
      | none => exact maintains_pure _
      | some r =>
          refine Maintains.bind (endures_await _) fun outcome => ?_
          cases outcome <;> exact maintains_pure _

theorem endures_deliver (batch : Batch) : Endures (deliver batch) := by
  refine Maintains.bind (endures_modify _) fun _ => ?_
  refine Maintains.bind (endures_send batch) fun result => ?_
  cases result <;> exact endures_modify _

theorem endures_flushAuth : Endures flushAuth := by
  refine Maintains.bind maintains_get fun before => ?_
  refine Maintains.ite (maintains_pure _) ?_
  refine Maintains.bind (endures_step _) fun batch => ?_
  refine Maintains.bind (endures_modify _) fun _ => ?_
  refine Maintains.bind (endures_send batch) fun result => ?_
  cases result <;> exact endures_modify _

theorem endures_flushRequests : Endures flushRequests := by
  refine Maintains.bind (endures_modify _) fun _ => ?_
  refine Maintains.bind (endures_step _) fun batch => ?_
  cases batch with
  | none => exact maintains_pure _
  | some batch => exact endures_deliver batch

theorem endures_perform (j : BatchJob) : Endures (perform j) := by
  cases j with
  | flushAuth => exact Maintains.map endures_flushAuth
  | deliver batch => exact Maintains.map (endures_deliver batch)
  | farewell request => exact Maintains.map (endures_await _)
  | deferredSend task wait =>
      refine Maintains.bind (endures_sleep wait) fun _ => ?_
      refine Maintains.bind (triple_change fun _ _ _ h => h) fun _ => ?_
      exact Maintains.bind (endures_modify _) fun _ => maintains_pure _
  | periodicFlush task =>
      refine Maintains.bind maintains_get fun before => ?_
      refine Maintains.bind (endures_sleep _) fun _ => ?_
      exact Maintains.bind endures_flushAuth fun _ => maintains_pure _

/-- The call gives a request event to the batcher. -/
def Call.reports : Call → Bool
  | .trackRequest _ => true
  | _ => false

theorem endures_serve {k : Call} (hk : k.reports = false) : Endures (serve k) := by
  cases k with
  | trackRequest e => cases hk
  | flushAuth => exact Maintains.map endures_flushAuth
  | flushRequests => exact Maintains.map endures_flushRequests
  | flushOnUnload => exact Maintains.map (endures_step _)
  | trackAuth e => exact Maintains.map (endures_modify _)
  | startPeriodic => exact Maintains.map (endures_modify _)
  | shutdown => exact Maintains.map (endures_modify _)
  | clear => exact Maintains.map (endures_modify _)
  | setVisibility inBackground => exact Maintains.map (endures_modify _)
  | setUser user => exact Maintains.map (endures_modify _)

/-- The work is a report of a request event. -/
def isReport : Work Call BatchJob → Bool
  | .call k => k.reports
  | .job _ => false

/-- Only the first stretch of a report may fault. -/
def strains : Rules Unit Batcher Call Answer BatchJob where
  memo := ()
  pact work _ i p _ _ := p = .faults → i.cue = none ∧ isReport work = true
  outcome _ _ _ _ _ := True

theorem strains_keptBy : strains.KeptBy workplace where
  drops _ _ _ := nofun
  meets work now b := by
    have hendures : ∀ {x : Activity Batcher (Ending Answer BatchJob)}, Endures x →
        (x now b).Meets (strains.pact work) (strains.outcome work) () ⟨none, now, b⟩ :=
      fun hx => (hx.meets () ⟨none, now, b⟩ b trivial).mono
        (fun _ _ _ _ _ hp hfaults => absurd hfaults hp) fun _ _ _ _ _ => trivial
    cases work with
    | job j =>
        refine hendures (Maintains.bind (endures_perform j) fun next => ?_)
        cases next <;> exact maintains_pure _
    | call k =>
        cases hk : k.reports with
        | false => exact hendures (Maintains.map (endures_serve hk))
        | true =>
            have hreport : Triple (strains.pact (.call k)) (fun _ i _ => i.cue = none)
                (workplace.carryOut (.call k)) fun _ _ _ _ => True := by
              cases k with
              | trackRequest e =>
                  exact Triple.map (Triple.map (triple_attempt (fun _ _ _ h _ => ⟨h, rfl⟩)
                    fun _ _ _ _ _ _ => trivial))
              | _ => cases hk
            exact hreport.meets () ⟨none, now, b⟩ b rfl

theorem isFault_of_meets {work : Work Call BatchJob} {i : Start Batcher}
    {r : Run Batcher (Ending Answer BatchJob)}
    (h : r.Meets (strains.pact work) (strains.outcome work) () i)
    (hi : ¬(i.cue = none ∧ isReport work = true)) : r.result.isFault = false := by
  cases r with
  | fault b f => exact absurd (h rfl) hi
  | _ => rfl

/-! ## The last send -/

variable {config : BatcherConfig} {sink : Sink} {hasWorkers : Bool} {s : BatcherScene}
  {ms : List BatcherMoment}

/-- When a batch was drained last, if nothing was discarded since. -/
def lastDrained (ms : List BatcherMoment) : Option Instant :=
  ms.foldl (fun last x =>
    if clears x.work x.result then none
    else if (drained? x).isSome then some x.start.now else last) none

theorem lastDrained_snoc (ms : List BatcherMoment) (x : BatcherMoment) : lastDrained (ms ++ [x]) =
    if clears x.work x.result then none
    else if (drained? x).isSome then some x.start.now else lastDrained ms := by
  simp [lastDrained, List.foldl_append]

theorem mem_of_lastDrained {last : Instant} (h : lastDrained ms = some last) :
    ∃ x ∈ ms, x.start.now = last := by
  induction ms using List.reverseRecOn with
  | nil => cases h
  | append_singleton ms x ih =>
      rw [lastDrained_snoc] at h
      split at h
      · cases h
      · split at h
        · exact ⟨x, by simp, Option.some.inj h⟩
        · obtain ⟨y, hy, hlast⟩ := ih h
          exact ⟨y, List.mem_append_left _ hy, hlast⟩

/-- A moment that discards everything leaves no last send. -/
theorem Acts.lastSend_of_clears {x : BatcherMoment} (h : Acts x)
    (hclears : clears x.work x.result = true) : x.left.lastSend = none := by
  cases h.turn with
  | discards haccepts hclears' hline => exact congrArg (·.lastSend) hline
  | _ => simp_all

/-- The last send is the last batch that was drained since everything was discarded. -/
theorem lastSend_of_course (h : workplace.Course (idle (new config sink hasWorkers)) ms s) :
    s.state.lastSend = lastDrained ms := by
  induction h with
  | nil => rfl
  | @snoc ms t x ht hx ih =>
      have hacts : Acts x := acts_of_mem (ht.snoc hx) x (by simp)
      rw [lastDrained_snoc, state_after hx, ← ih, ← hx.start_state]
      cases hacts.flow with
      | empties hclears haccepts hleft =>
          rw [if_pos hclears]
          exact hacts.lastSend_of_clears hclears
      | keeps hclears hdrained hleft hlast =>
          rw [hclears, hdrained]
          exact hlast
      | drains hclears hdrained hleft hlast =>
          rw [hclears, hdrained, batch?]
          refine hlast.trans ?_
          by_cases hempty : (gathered x).isEmpty = true <;> simp [hempty]

/-! ## Courses -/

theorem isFault_report (e : Event) (now : Instant) (b : Batcher) :
    (workplace.carryOut (.call (.trackRequest e)) now b).result.isFault =
      (b.trackRequest e now).toOption.isNone :=
  calc (workplace.carryOut (.call (.trackRequest e)) now b).result.isFault
    _ = (serve (.trackRequest e) now b).result.isFault := isFault_map _
    _ = (Activity.attempt (fun now b => b.trackRequest e now) now b).result.isFault :=
        isFault_map _
    _ = (b.trackRequest e now).toOption.isNone := isFault_attempt _

/-- A call in a course gets no answer if and only if it reports an event that is to be taken and
does not fill the line, no send is deferred yet and the distance to the last batch outruns the
calendar. -/
theorem call_isFault_iff (h : workplace.Course (idle (new config sink hasWorkers)) ms s)
    (hms : ∀ x ∈ ms, x.start.now.InCalendar) (now : Instant) (k : Call) :
    (workplace.carryOut (.call k) now s.state).result.isFault = true ↔
      ∃ e last, k = .trackRequest e ∧ s.state.Wants e now ∧
        s.state.requests.length + 1 < max config.requestMaxQueue 1 ∧
          s.state.pendingSend = none ∧ lastDrained ms = some last ∧
            calendarEnd ≤ last.nanos + config.minSendInterval.nanos := by
  have hlast := lastSend_of_course h
  have hconfig := (config_of_course h).1
  have hcalendar : ∀ last, s.state.lastSend = some last → last.InCalendar := by
    intro last hsome
    obtain ⟨x, hx, rfl⟩ := mem_of_lastDrained (hlast.symm.trans hsome)
    exact hms x hx
  cases hk : k.reports with
  | false =>
      have hmeets := strains_keptBy.meets (.call k) now s.state
      have hnone : ¬((none : Option Cue) = none ∧ isReport (.call k) = true) := by
        rintro ⟨-, hreport⟩
        exact absurd hreport (Bool.eq_false_iff.mp hk)
      rw [isFault_of_meets hmeets hnone]
      refine iff_of_false Bool.false_ne_true ?_
      rintro ⟨e, last, rfl, -⟩
      cases hk
  | true =>
      obtain ⟨e, rfl⟩ : ∃ e, k = .trackRequest e := by
        cases k with
        | trackRequest e => exact ⟨e, rfl⟩
        | _ => cases hk
      rw [isFault_report, trackRequest_isNone_iff hcalendar, Outrun, hlast, hconfig]
      constructor
      · rintro ⟨hwants, hroom, hpending, last, hsome, hover⟩
        exact ⟨e, last, rfl, hwants, hroom, hpending, hsome, hover⟩
      · rintro ⟨_, last, heq, hwants, hroom, hpending, hsome, hover⟩
        cases heq
        exact ⟨hwants, hroom, hpending, last, hsome, hover⟩

/-- What is under way in a course goes on: a task that begins, and whatever has waited. -/
theorem flight_goesOn (h : workplace.Course (idle (new config sink hasWorkers)) ms s)
    {f : Flight Batcher Call Answer BatchJob} (hf : f ∈ s.flights) (now : Instant) :
    (f.waiting = none → (workplace.carryOut f.work now s.state).result.isFault = false) ∧
      ∀ y, f.waiting = some y → ∀ a, (y.resume a now s.state).result.isFault = false := by
  refine ⟨fun hbegins => ?_, fun y hy a => ?_⟩
  · have hunderway := ((h.sound fun x hx => (acts_of_mem h x hx).goesOn).1 f hf).underway
    refine isFault_of_meets (strains_keptBy.meets f.work now s.state) fun ⟨_, hreport⟩ => ?_
    cases hwork : f.work with
    | job j =>
        rw [hwork] at hreport
        cases hreport
    | call k =>
        have hwaits := (hunderway (by rw [hwork]; rfl)).2
        rw [hbegins] at hwaits
        cases hwaits
  · obtain ⟨-, hheld⟩ := strains_keptBy.course (R := fun _ _ _ => True) (fun _ _ => trivial)
      (fun _ _ _ _ h => h) (fun _ _ _ _ _ _ _ _ => trivial) (.idle _) h
    obtain ⟨_, -, hawaits⟩ := hheld f hf y hy
    exact isFault_of_meets (hawaits.meets a now s.state) fun hnone => nomatch hnone.1

/-- In a course at readings of the calendar a call gets no answer if and only if it reports a
request event that the batcher is to take, that does not fill the line, for which no send is
deferred yet, and the calendar is over before the distance has been kept to the last batch that was
drained since everything was discarded. No task faults, and nothing that has waited. -/
theorem report_isFault_iff (h : workplace.Course (idle (new config sink hasWorkers)) ms s)
    (hms : ∀ x ∈ ms, x.start.now.InCalendar) (now : Instant) :
    (∀ k : Call, (workplace.carryOut (.call k) now s.state).result.isFault = true ↔
      ∃ e last, k = .trackRequest e ∧ s.state.Wants e now ∧
        s.state.requests.length + 1 < max config.requestMaxQueue 1 ∧
          s.state.pendingSend = none ∧ lastDrained ms = some last ∧
            calendarEnd ≤ last.nanos + config.minSendInterval.nanos) ∧
    ∀ f ∈ s.flights,
      (f.waiting = none → (workplace.carryOut f.work now s.state).result.isFault = false) ∧
        ∀ y, f.waiting = some y → ∀ a, (y.resume a now s.state).result.isFault = false :=
  ⟨call_isFault_iff h hms now, fun _ hf => flight_goesOn h hf now⟩

/-- Batches are to be kept more than thirty thousand years apart. -/
def lifelong : BatcherConfig :=
  { (default : BatcherConfig) with minSendIntervalSecs := 1000000000000 }

def visit (path : String) : Event :=
  .request "GET" path (some 200) Span.zero ⟨1748779200000000000⟩

/-- An event is reported on the first of June 2025 at noon, and the batch of it is drained at once.
-/
def firstBatch : List (Instant × Move Call) :=
  [(⟨1748779200000000000⟩, .ask (.trackRequest (visit "/a"))),
    (⟨1748779200000000000⟩, .begin 1)]

/-- Another event cannot be reported a second later, though all else goes on. -/
theorem report_isFault_iff_lifelong : ∃ (ms : List BatcherMoment) (s : BatcherScene)
    (now : Instant),
      workplace.Course (idle (new lifelong (.service true) true)) ms s ∧
      (∀ x ∈ ms, x.start.now.InCalendar) ∧
      (workplace.carryOut (.call (.trackRequest (visit "/b"))) now s.state).result.isFault = true ∧
      (workplace.carryOut (.call (.trackRequest (visit "/a"))) now s.state).result.isFault = false ∧
      s.flights ≠ [] ∧
      ∀ f ∈ s.flights,
        (f.waiting = none → (workplace.carryOut f.work now s.state).result.isFault = false) ∧
          ∀ y, f.waiting = some y → ∀ a, (y.resume a now s.state).result.isFault = false := by
  let now : Instant := ⟨1748779201000000000⟩
  have hpasses : workplace.passes (idle (new lifelong (.service true) true)) firstBatch 0
      (fun ms x ms' s => decide ((∀ y ∈ ms ++ x :: ms', y.start.now.InCalendar) ∧
        s.state.Wants (visit "/b") now ∧ ¬s.state.Wants (visit "/a") now ∧
        s.state.requests.length + 1 < max lifelong.requestMaxQueue 1 ∧
        s.state.pendingSend = none ∧ lastDrained (ms ++ x :: ms') =
          some ⟨1748779200000000000⟩) && !s.flights.isEmpty) = true := by
    decide +kernel
  obtain ⟨ms, x, ms', s, h, htest⟩ := exists_course hpasses
  rw [Bool.and_eq_true, decide_eq_true_eq] at htest
  obtain ⟨⟨hms, hwants, hrefused, hroom, hpending, hlast⟩, hflights⟩ := htest
  obtain ⟨hcalls, hothers⟩ := report_isFault_iff h hms now
  refine ⟨_, s, now, h, hms, ?_, ?_, fun hnil => ?_, hothers⟩
  · exact (hcalls _).mpr ⟨_, _, rfl, hwants, hroom, hpending, hlast, by decide⟩
  · refine Bool.eq_false_iff.mpr fun hfault => ?_
    obtain ⟨e, last, he, hwanted, -⟩ := (hcalls _).mp hfault
    cases he
    exact hrefused hwanted
  · rw [hnil] at hflights
    cases hflights

/-- Such a distance can be configured, and then not every call gets an answer, though all is within
one second. -/
theorem not_reports_answered : ¬∀ (text : String) (config : BatcherConfig) (sink : Sink)
    (hasWorkers : Bool) (ms : List BatcherMoment) (s : BatcherScene) (k : Call) (now : Instant),
    (Json.decodeWhole BatcherConfig.shape.decode text).toOption = some config →
      workplace.Course (idle (new config sink hasWorkers)) ms s →
        (∀ x ∈ ms, x.start.now = ⟨1748779200000000000⟩) → now = ⟨1748779201000000000⟩ →
          (workplace.carryOut (.call k) now s.state).result.isFault = false := by
  intro hclaim
  have hread : (Json.decodeWhole BatcherConfig.shape.decode
      "\x7b\"minSendIntervalSecs\": 1000000000000\x7d").toOption = some lifelong := by
    decide +kernel
  have hpasses : workplace.passes (idle (new lifelong (.service true) true)) firstBatch 0
      (fun ms x ms' s => decide ((∀ y ∈ ms ++ x :: ms', y.start.now = ⟨1748779200000000000⟩) ∧
        (workplace.carryOut (.call (.trackRequest (visit "/b"))) ⟨1748779201000000000⟩
          s.state).result.isFault = true)) = true := by
    decide +kernel
  obtain ⟨ms, x, ms', s, h, htest⟩ := exists_course hpasses
  obtain ⟨hms, hfault⟩ := of_decide_eq_true htest
  have hanswered := hclaim _ _ _ _ _ s (.trackRequest (visit "/b")) _ hread h hms rfl
  rw [hanswered] at hfault
  cases hfault

/-- While a distance that begins among the readings ends in the calendar everybody gets an answer.
-/
theorem reports_answered (h : workplace.Course (idle (new config sink hasWorkers)) ms s)
    {past : Int} (hms : ∀ x ∈ ms, calendarStart ≤ x.start.now.nanos ∧ x.start.now.nanos < past)
    (hends : past + config.minSendInterval.nanos ≤ calendarEnd) (k : Call) (now : Instant) :
    (workplace.carryOut (.call k) now s.state).result.isFault = false := by
  have hforward := nanos_minSendInterval_nonneg config
  have hover : past ≤ calendarEnd := by omega
  have hcalendar : ∀ x ∈ ms, x.start.now.InCalendar := fun x hx =>
    ⟨(hms x hx).1, lt_of_lt_of_le (hms x hx).2 hover⟩
  refine Bool.eq_false_iff.mpr fun hfault => ?_
  obtain ⟨e, last, -, -, -, -, hlast, hover⟩ := (call_isFault_iff h hcalendar now k).mp hfault
  obtain ⟨x, hx, rfl⟩ := mem_of_lastDrained hlast
  have hbefore := (hms x hx).2
  omega

end Batcher

end ClientSession
