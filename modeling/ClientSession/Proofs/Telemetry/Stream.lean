import ClientSession.Proofs.Aftermath
import ClientSession.Proofs.Telemetry.Custody
import ClientSession.Proofs.Telemetry.Requests

/-!
# The stream of request events

The request events that a batcher accepts stand in a line until a batch takes all of them away or
everything is discarded. The moments of a course tell which events were accepted, and by which exits
they left.

- `Batcher.Flow`: what a moment does to the line.
- `Batcher.requests_append_accepted`: what was in line and what was accepted has left by the exits
  of the course, in this order, or is in line still.
- `Batcher.count_passed_le`: each batch is handed to the sink once at most.
- `Batcher.drained_append_requests`: so the batches and the line are what was accepted, without what
  was discarded.
-/

namespace ClientSession

namespace Batcher

open Workplace

variable {s s' : BatcherScene} {ms : List BatcherMoment} {x : BatcherMoment}

/-! ## Moments -/

/-- A moment does what stretches do. -/
def Acts (x : BatcherMoment) : Prop := Does x.work x.start x.result x.left

theorem acts_of_mem {b : Batcher} (h : workplace.Course (idle b) ms s) : ∀ x ∈ ms, Acts x := by
  intro x hx
  have hkeeps := turns_keptBy.all h x hx
  unfold Acts
  cases hr : x.result with
  | ended e =>
      simp only [Rules.Keeps, hr] at hkeeps
      exact hkeeps.1
  | paused p =>
      simp only [Rules.Keeps, hr] at hkeeps
      exact hkeeps

/-- Nothing else happens to the state of a batcher after a moment than that its orders are heeded.
-/
theorem state_after (hx : workplace.Step s x) : x.after.state = { x.left with commands := [] } := by
  rcases hx.after_state with h | ⟨-, j, -, h⟩ <;> exact h

/-- No order waits between two moments. -/
theorem commands_of_course {b : Batcher} (hb : b.commands = [])
    (h : workplace.Course (idle b) ms s) : s.state.commands = [] := by
  cases h with
  | nil => exact hb
  | snoc _ hx =>
      rw [state_after hx]

/-- After a moment its own flight is what it left of it, and then the orders of the state that it
left are heeded. -/
theorem exists_aftermath (hx : workplace.Step s x) (hacts : Acts x) : ∃ own base,
    x.Leaves own ∧ Exchanged s x.number own base ∧ x.after = workplace.heed base x.left := by
  obtain ⟨own, base, c, hleaves, hbase, hafter, hstate⟩ := hx.aftermath hacts.goesOn
  obtain rfl : c = x.left := hstate.elim id fun ⟨_, h⟩ => h
  exact ⟨own, base, hleaves, hbase, hafter⟩

/-! ## What a moment does to the line -/

/-- The request event that a moment accepted. -/
def accepted? (x : BatcherMoment) : Option Event := accepts? x.work x.start x.result

/-- What stood in line, and the event that joined it. -/
def gathered (x : BatcherMoment) : List Event := x.start.state.requests ++ (accepted? x).toList

/-- The batch that took all that stood in line: no event is left, though nothing was discarded. -/
def drained? (x : BatcherMoment) : Option Batch :=
  if clears x.work x.result || !x.left.requests.isEmpty then none
  else batch? (gathered x) x.start.now x.start.state.serial

/-- A way for events to leave the line. -/
inductive Exit where
  | drained (batch : Batch)
  | emptied (events : List Event)

def Exit.events : Exit → List Event
  | .drained batch => batch.events
  | .emptied events => events

def Exit.batch? : Exit → Option Batch
  | .drained batch => some batch
  | .emptied _ => none

def exit? (x : BatcherMoment) : Option Exit :=
  if clears x.work x.result then some (.emptied x.start.state.requests)
  else (drained? x).map .drained

/-- What a moment does to the line. -/
inductive Flow (x : BatcherMoment) : Prop where
  | empties (hclears : clears x.work x.result = true) (haccepts : accepted? x = none)
      (hleft : x.left.requests = [])
  | keeps (hclears : clears x.work x.result = false) (hdrained : drained? x = none)
      (hleft : x.left.requests = gathered x) (hlast : x.left.lastSend = x.start.state.lastSend)
  | drains (hclears : clears x.work x.result = false)
      (hdrained : drained? x = batch? (gathered x) x.start.now x.start.state.serial)
      (hleft : x.left.requests = [])
      (hlast : x.left.lastSend =
        if (gathered x).isEmpty then x.start.state.lastSend else some x.start.now)

theorem drained?_of_kept (hleft : x.left.requests = gathered x) : drained? x = none := by
  by_cases hempty : gathered x = []
  · simp [drained?, batch?, hempty]
  · simp [drained?, hleft, hempty]

theorem drained?_of_empty (hclears : clears x.work x.result = false)
    (hleft : x.left.requests = []) :
    drained? x = batch? (gathered x) x.start.now x.start.state.serial := by
  simp [drained?, hclears, hleft]

theorem gathered_of_none (haccepts : accepted? x = none) : gathered x = x.start.state.requests := by
  simp [gathered, haccepts]

theorem Acts.flow (h : Acts x) : Flow x := by
  have hkeeps (hclears : clears x.work x.result = false) (hleft : x.left.requests = gathered x)
      (hlast : x.left.lastSend = x.start.state.lastSend) : Flow x :=
    .keeps hclears (drained?_of_kept hleft) hleft hlast
  have hsame (haccepts : accepted? x = none) (hclears : clears x.work x.result = false)
      (hleft : x.left.requests = x.start.state.requests)
      (hlast : x.left.lastSend = x.start.state.lastSend) : Flow x :=
    hkeeps hclears (hleft.trans (gathered_of_none haccepts).symm) hlast
  cases h.turn with
  | rests orders horders haccepts hclears hends hline =>
      exact hsame haccepts hclears (congrArg (·.requests) hline) (congrArg (·.lastSend) hline)
  | arms haccepts hclears hcall hline =>
      exact hsame haccepts hclears (congrArg (·.requests) hline) (congrArg (·.lastSend) hline)
  | disarms haccepts hclears hcall hline =>
      exact hsame haccepts hclears (congrArg (·.requests) hline) (congrArg (·.lastSend) hline)
  | closes haccepts hclears hshuts hline =>
      exact hsame haccepts hclears (congrArg (·.requests) hline) (congrArg (·.lastSend) hline)
  | discards haccepts hclears hline =>
      exact .empties hclears haccepts (congrArg (·.requests) hline)
  | queues e haccepts hclears hpending hline =>
      refine hkeeps hclears ?_ (congrArg (·.lastSend) hline)
      rw [gathered, accepted?, haccepts]
      exact congrArg (·.requests) hline
  | defers e wait haccepts hclears hpending hworkers hwait hline =>
      refine hkeeps hclears ?_ (congrArg (·.lastSend) hline)
      rw [gathered, accepted?, haccepts]
      exact congrArg (·.requests) hline
  | sends joining orders lasts haccepts hclears hcall hbegins hgoes horders hline =>
      have hleft : x.left.requests = [] := congrArg (·.requests) hline
      refine .drains hclears (drained?_of_empty hclears hleft) hleft ?_
      rw [gathered, accepted?, haccepts]
      exact congrArg (·.lastSend) hline
  | fires task wait haccepts hclears hwork hends hcue hline =>
      have hleft : x.left.requests = [] := congrArg (·.requests) hline
      refine .drains hclears (drained?_of_empty hclears hleft) hleft ?_
      rw [gathered_of_none haccepts]
      exact congrArg (·.lastSend) hline

theorem flatMap_batch? (events : List Event) (now : Instant) (serial : Nat) :
    (batch? events now serial).toList.flatMap (·.events) = events := by
  unfold batch?
  split
  · rename_i hempty
    simp [List.isEmpty_iff.mp hempty]
  · simp [Batch.new]

/-- All that stood in line has left by the exit of the moment, or stands there still. -/
theorem Flow.gathered_eq (h : Flow x) :
    gathered x = (exit? x).toList.flatMap Exit.events ++ x.left.requests := by
  cases h with
  | empties hclears haccepts hleft => simp [gathered, exit?, hclears, haccepts, hleft, Exit.events]
  | keeps hclears hdrained hleft hlast => simp [exit?, hclears, hdrained, hleft]
  | drains hclears hdrained hleft hlast =>
      have hevents := flatMap_batch? (gathered x) x.start.now x.start.state.serial
      rw [exit?, hclears, hdrained, hleft]
      cases hbatch : batch? (gathered x) x.start.now x.start.state.serial with
      | none => simpa [hbatch] using hevents.symm
      | some batch => simpa [hbatch, Exit.events] using hevents.symm

/-! ## The stream -/

/-- The request events that were accepted, in this order. -/
def accepted (ms : List BatcherMoment) : List Event := ms.filterMap accepted?

def exits (ms : List BatcherMoment) : List Exit := ms.filterMap exit?

/-- The batches in the order in which they took what stood in line. -/
def drained (ms : List BatcherMoment) : List Batch := ms.filterMap drained?

theorem filterMap_concat {α β : Type} (φ : α → Option β) (l : List α) (a : α) :
    (l ++ [a]).filterMap φ = l.filterMap φ ++ (φ a).toList := by
  cases ha : φ a <;> simp [ha]

theorem accepted_snoc (ms : List BatcherMoment) (x : BatcherMoment) :
    accepted (ms ++ [x]) = accepted ms ++ (accepted? x).toList := filterMap_concat _ ms x

theorem exits_snoc (ms : List BatcherMoment) (x : BatcherMoment) :
    exits (ms ++ [x]) = exits ms ++ (exit? x).toList := filterMap_concat _ ms x

/-- What stood in line at the start of a course, and what was accepted in it, has left by the exits,
one after another, or stands in line. -/
theorem requests_append_accepted (h : workplace.Course s ms s') (hacts : ∀ x ∈ ms, Acts x) :
    s.state.requests ++ accepted ms = (exits ms).flatMap Exit.events ++ s'.state.requests := by
  induction h with
  | nil => simp [accepted, exits]
  | @snoc ms t x _ hx ih =>
      have hbefore := ih fun y hy => hacts y (List.mem_append_left _ hy)
      have hflow := (hacts x (by simp)).flow.gathered_eq
      rw [gathered, hx.start_state] at hflow
      have hleft : x.after.state.requests = x.left.requests := by rw [state_after hx]
      rw [accepted_snoc, exits_snoc, hleft, ← List.append_assoc, hbefore, List.append_assoc, hflow,
        List.flatMap_append, List.append_assoc]

/-- The batch of request events that a moment handed to the sink: a delivery of it began, or a
caller that drained it did so. -/
def passed? (x : BatcherMoment) : Option Batch :=
  match x.start.cue, x.result, x.work with
  | some _, _, _ => none
  | none, .paused .drops, _ => none
  | none, _, .job (.deliver batch) => some batch
  | none, _, work => if handsOver work then drained? x else none

def passed (ms : List BatcherMoment) : List Batch := ms.filterMap passed?

/-- The batch that a job will hand to the sink. -/
def delivery? : BatchJob → Option Batch
  | .deliver batch => some batch
  | _ => none

/-- The batch that a flight will hand to the sink once it begins. -/
def unsent? (f : Flight Batcher Call Answer BatchJob) : Option Batch :=
  match f.work, f.waiting with
  | .job j, none => delivery? j
  | _, _ => none

def unsent (s : BatcherScene) : List Batch := s.flights.filterMap unsent?

/-- The batches whose delivery is ordered. -/
def deliveries (orders : List (Command BatchJob Nat)) : List Batch :=
  (orders.filterMap Command.start?).filterMap delivery?

@[simp] theorem deliveries_append (orders orders' : List (Command BatchJob Nat)) :
    deliveries (orders ++ orders') = deliveries orders ++ deliveries orders' := by
  simp [deliveries]

@[simp] theorem deliveries_halting (task : Option Nat) : deliveries (halting task) = [] := by
  cases task <;> rfl

theorem deliveries_eq_nil {orders : List (Command BatchJob Nat)}
    (h : ∀ o ∈ orders, ∃ j, o = .start j ∧ delivery? j = none) : deliveries orders = [] := by
  simp only [deliveries, List.filterMap_filterMap, List.filterMap_eq_nil_iff]
  intro o ho
  obtain ⟨j, rfl, hj⟩ := h o ho
  exact hj

theorem deliveries_delivering (l : Line) (now : Instant) (serial : Nat) :
    deliveries (l.delivering now serial) = [] ∨
      deliveries (l.delivering now serial) = (batch? l.requests now serial).toList := by
  unfold Line.delivering batch?
  split
  · exact .inl rfl
  · split
    · exact .inr rfl
    · exact .inl rfl

/-- A batch is left to a delivery only if its caller does not hand it over. -/
theorem Acts.deliveries (h : Acts x) (hcommands : x.start.state.commands = []) :
    deliveries x.left.commands = [] ∨ handsOver x.work = false ∧
      deliveries x.left.commands = (drained? x).toList := by
  have hordered (l : Line) (hline : x.left.line = l) : x.left.commands = l.commands :=
    congrArg (·.commands) hline
  have hbefore : x.start.state.line.commands = [] := hcommands
  cases h.turn with
  | rests orders horders haccepts hclears hends hline =>
      refine .inl ?_
      rw [hordered _ hline, Line.order, hbefore, List.nil_append]
      exact deliveries_eq_nil fun o ho => ⟨_, horders o ho, rfl⟩
  | arms haccepts hclears hcall hline =>
      refine .inl ?_
      rw [hordered _ hline, Line.order, hbefore]
      cases x.start.state.flushTask <;> rfl
  | disarms haccepts hclears hcall hline =>
      refine .inl ?_
      simp [hordered _ hline, Line.order, hbefore]
  | closes haccepts hclears hshuts hline =>
      refine .inl ?_
      simp [hordered _ hline, Line.cancelled, Line.order, hbefore]
  | discards haccepts hclears hline =>
      refine .inl ?_
      simp [hordered _ hline, Line.cancelled, Line.order, hbefore]
  | queues e haccepts hclears hpending hline =>
      refine .inl ?_
      rw [hordered _ hline, Line.join, hbefore]
      rfl
  | defers e wait haccepts hclears hpending hworkers hwait hline =>
      refine .inl ?_
      rw [hordered _ hline, Line.deferred, Line.order, Line.join, hbefore]
      rfl
  | sends joining orders lasts haccepts hclears hcall hbegins hgoes horders hline =>
      have hsame : Batcher.deliveries x.left.commands = Batcher.deliveries orders := by
        simp [hordered _ hline, Line.order, Line.drained, Line.cancelled, Line.join, hbefore]
      rw [hsame]
      cases hhands : handsOver x.work with
      | true =>
          rw [if_pos hhands] at horders
          refine .inl (deliveries_eq_nil fun o ho => ?_)
          obtain ⟨r, rfl⟩ := horders.1 o ho
          exact ⟨_, rfl, rfl⟩
      | false =>
          rw [if_neg (Bool.eq_false_iff.mp hhands)] at horders
          rw [horders.1]
          refine (deliveries_delivering _ _ _).imp_right fun hdelivers => ⟨rfl, ?_⟩
          have hempty : x.left.requests = [] := congrArg (·.requests) hline
          rw [hdelivers, drained?, hclears, hempty, gathered, accepted?, haccepts]
          rfl
  | fires task wait haccepts hclears hwork hends hcue hline =>
      have hsame : Batcher.deliveries x.left.commands = Batcher.deliveries
          (x.start.state.line.delivering x.start.now x.start.state.serial) := by
        simp [hordered _ hline, Line.order, Line.drained, hbefore]
      rw [hsame]
      refine (deliveries_delivering _ _ _).imp_right fun hdelivers => ?_
      have hempty : x.left.requests = [] := congrArg (·.requests) hline
      rw [hdelivers, drained?, hclears, hempty, gathered, accepted?, haccepts, hwork]
      exact ⟨rfl, by simp [line]⟩

/-- Whoever waits for a sink has just handed a batch over, or sends session events or the request
of a last batch. -/
theorem Acts.carries (h : Acts x) {w : Wait} (hw : x.result = .paused (.waits w))
    (hsink : w.isSink = true) : (∃ batch, passed? x = some batch ∧ Carries batch w) ∨
      flushes x.work = true ∨ ∃ r, x.work = .job (.farewell r) ∧ w = .call r := by
  have hpauses := h.pauses w hw
  cases hwork : x.work with
  | call k =>
      rw [hwork] at hpauses
      cases k with
      | flushRequests =>
          obtain ⟨hcue, hleft, batch, hbatch, hcarries⟩ := hpauses
          refine .inl ⟨batch, ?_, hcarries⟩
          simp [passed?, hcue, hwork, hw, handsOver, drained?, clears, hleft, gathered, accepted?,
            accepts?_paused, hbatch]
      | flushAuth => exact .inr (.inl rfl)
      -- No other call waits.
      | _ => cases hpauses
  | job j =>
      rw [hwork] at hpauses
      cases j with
      | deliver batch =>
          obtain ⟨hcue, hcarries⟩ := hpauses
          exact .inl ⟨batch, by simp [passed?, hcue, hwork, hw], hcarries⟩
      | farewell r => exact .inr (.inr ⟨r, rfl, hpauses.2⟩)
      | deferredSend task wait =>
          obtain ⟨-, -, rfl⟩ := hpauses
          cases hsink
      | flushAuth => exact .inr (.inl rfl)
      | periodicFlush task => exact .inr (.inl rfl)

/-- What a moment hands to a service before an unload is the batch that it hands over. -/
theorem Acts.farewells (h : Acts x) : ∃ lasts,
    x.left.farewells = x.start.state.farewells ++ lasts ∧
      (lasts.map (·.2)).Sublist (passed? x).toList := by
  have hsame (hleft : x.left.farewells = x.start.state.farewells) : ∃ lasts,
      x.left.farewells = x.start.state.farewells ++ lasts ∧
        (lasts.map (·.2)).Sublist (passed? x).toList :=
    ⟨[], by rw [hleft, List.append_nil], List.nil_sublist _⟩
  cases h.turn with
  | rests orders horders haccepts hclears hends hline => exact hsame (congrArg (·.farewells) hline)
  | arms haccepts hclears hcall hline => exact hsame (congrArg (·.farewells) hline)
  | disarms haccepts hclears hcall hline => exact hsame (congrArg (·.farewells) hline)
  | closes haccepts hclears hshuts hline => exact hsame (congrArg (·.farewells) hline)
  | discards haccepts hclears hline => exact hsame (congrArg (·.farewells) hline)
  | queues e haccepts hclears hpending hline => exact hsame (congrArg (·.farewells) hline)
  | defers e wait haccepts hclears hpending hworkers hwait hline =>
      exact hsame (congrArg (·.farewells) hline)
  | fires task wait haccepts hclears hwork hends hcue hline =>
      exact hsame (congrArg (·.farewells) hline)
  | sends joining orders lasts haccepts hclears hcall hbegins hgoes horders hline =>
      refine ⟨lasts, congrArg (·.farewells) hline, ?_⟩
      cases hhands : handsOver x.work with
      | false =>
          rw [if_neg (Bool.eq_false_iff.mp hhands)] at horders
          rw [horders.2]
          exact List.nil_sublist _
      | true =>
          rw [if_pos hhands] at horders
          have hempty : x.left.requests = [] := congrArg (·.requests) hline
          have hjoining : accepts? x.work x.start x.result = none := by
            cases hwork : x.work with
            | call k => cases k <;> first | rfl | (rw [hwork] at hhands; cases hhands)
            | job j => rfl
          have hpassed : passed? x = drained? x := by
            cases hwork : x.work with
            | call k =>
                rw [hwork] at hhands
                simp [passed?, hbegins, hwork, hhands]
            | job j =>
                rw [hwork] at hcall
                cases hcall
          rw [hpassed, drained?, hclears, hempty, gathered, accepted?, hjoining]
          simpa using horders.2

end Batcher

end ClientSession
