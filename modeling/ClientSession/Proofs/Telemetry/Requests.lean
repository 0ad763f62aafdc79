import ClientSession.Proofs.Telemetry.Callers

/-!
# What stretches do to request events

The request events of a batcher wait in a line. A stretch of any work does one of few things to the
line and to the timer of its deferred send: it leaves them alone, an event joins the line, the timer
is started or withdrawn, or the line is discarded or drained into a batch, which is then handed to
the sink or left to a task.

- `Batcher.Turn`: what a stretch may do.
- `Batcher.trackRequest_cases`: what becomes of a request event that is given to a batcher.
- `Batcher.turns_keptBy`: every stretch of all work takes such a turn.
-/

namespace ClientSession

namespace Batcher

open Activity

/-! ## The line -/

/-- What a batcher has for its request events and its timers. -/
structure Line where
  config : BatcherConfig
  hasWorkers : Bool
  requests : List Event
  lastSend : Option Instant
  pendingSend : Option Nat
  flushTask : Option Nat
  nextTask : Nat
  commands : List (Command BatchJob Nat)
  farewells : List (Instant × Batch)

def line (b : Batcher) : Line where
  config := b.config
  hasWorkers := b.hasWorkers
  requests := b.requests
  lastSend := b.lastSend
  pendingSend := b.pendingSend
  flushTask := b.flushTask
  nextTask := b.nextTask
  commands := b.commands
  farewells := b.farewells

/-- The order to stop a task, if there is one. -/
def halting (task : Option Nat) : List (Command BatchJob Nat) := (task.map Command.stop).toList

namespace Line

variable (l : Line)

def order (orders : List (Command BatchJob Nat)) : Line :=
  { l with commands := l.commands ++ orders }

/-- An event joins the line, if there is one. -/
def join (joining : Option Event) : Line := { l with requests := l.requests ++ joining.toList }

/-- The deferred send is taken back. -/
def cancelled : Line := { l.order (halting l.pendingSend) with pendingSend := none }

/-- All events leave the line, which counts as a send if there are any. -/
def drained (now : Instant) : Line :=
  { l with
    requests := []
    lastSend := if l.requests.isEmpty then l.lastSend else some now }

/-- The order to deliver the batch of the events, if there are any and tasks can be started. -/
def delivering (now : Instant) (serial : Nat) : List (Command BatchJob Nat) :=
  if l.requests.isEmpty then []
  else if l.hasWorkers then [.start (.deliver (.new l.requests now serial))]
  else []

end Line

section Lines

variable {b b' : Batcher} {now : Instant}

theorem line_start (b : Batcher) (job : BatchJob) :
    (b.start job).2.line = b.line.order (if b.hasWorkers then [.start job] else []) := by
  unfold start
  split <;> simp [line, Line.order]

theorem line_stop (b : Batcher) (task : Option Nat) :
    (b.stop task).line = b.line.order (halting task) := by
  cases task <;> simp [stop, line, Line.order, halting]

theorem line_cancelPending (b : Batcher) : b.cancelPending.line = b.line.cancelled := by
  have hstop := line_stop b b.pendingSend
  exact congrArg (fun l => { l with pendingSend := none }) hstop

theorem serial_cancelPending (b : Batcher) : b.cancelPending.serial = b.serial := by
  unfold cancelPending stop
  split <;> rfl

/-- The batch of the events of a line, if there are any. -/
def batch? (events : List Event) (now : Instant) (serial : Nat) : Option Batch :=
  if events.isEmpty then none else some (.new events now serial)

theorem fst_drainRequests (b : Batcher) (now : Instant) :
    (b.drainRequests now).1 = batch? b.requests now b.serial := by
  unfold drainRequests batch?
  split <;> rfl

theorem line_drainRequests (b : Batcher) (now : Instant) :
    (b.drainRequests now).2.line = b.line.drained now := by
  unfold drainRequests
  split
  · rename_i hempty
    simp [line, Line.drained, List.isEmpty_iff.mp hempty]
  · rename_i hsome
    simp [line, Line.drained, hsome]

theorem line_startDelivery (b : Batcher) (now : Instant) : (b.startDelivery now).line =
    (b.line.drained now).order (b.line.delivering now b.serial) := by
  have hfst := fst_drainRequests b now
  have hline := line_drainRequests b now
  have hworkers : (b.drainRequests now).2.hasWorkers = b.hasWorkers :=
    congrArg (·.hasWorkers) hline
  unfold startDelivery
  unfold batch? at hfst
  split
  · rename_i batch b' hb
    rw [hb] at hfst hline hworkers
    split at hfst
    · cases hfst
    · rename_i hsome
      obtain rfl := Option.some.inj hfst
      have hdelivering : b.line.delivering now b.serial =
          if b.hasWorkers then [.start (.deliver (.new b.requests now b.serial))] else [] :=
        if_neg hsome
      rw [line_start, hline, hworkers, hdelivering]
  · rename_i b' hb
    rw [hb] at hfst hline
    split at hfst
    · rename_i hempty
      have hdelivering : b.line.delivering now b.serial = [] := if_pos hempty
      rw [hline, hdelivering]
      simp [Line.order]
    · cases hfst

theorem line_clear (b : Batcher) :
    b.clear.line = { b.line.cancelled with requests := [], lastSend := none } := by
  have hcancel := line_cancelPending b
  exact congrArg (fun l => { l with requests := [], lastSend := none }) hcancel

theorem line_shutdown (b : Batcher) : b.shutdown.line =
    ({ b.line.order (halting b.flushTask) with flushTask := none } : Line).cancelled := by
  have hstop := line_stop b b.flushTask
  have hcancel := line_cancelPending (b.stop b.flushTask)
  rw [hstop] at hcancel
  exact congrArg (fun l => { l with flushTask := none }) hcancel

theorem line_trackAuth (b : Batcher) (e : Event) : ∃ orders,
    (∀ o ∈ orders, o = .start .flushAuth) ∧ (b.trackAuth e).line = b.line.order orders := by
  unfold trackAuth
  dsimp only
  split
  · refine ⟨_, ?_, line_start _ _⟩
    split <;> simp
  · exact ⟨[], nofun, by simp [line, Line.order]⟩

/-- The timer of the periodic flush is started in place of the one that runs. -/
theorem line_startPeriodic (b : Batcher) : b.startPeriodic.line = b.line ∨
    b.startPeriodic.line = { b.line.order (halting b.flushTask) with flushTask := none } ∨
      b.startPeriodic.line =
        { b.line.order (.start (.periodicFlush b.nextTask) :: halting b.flushTask) with
          flushTask := some b.nextTask
          nextTask := b.nextTask + 1 } := by
  unfold startPeriodic startTask
  split
  · refine .inr ?_
    dsimp only
    split
    · refine .inr ?_
      rw [show halting b.flushTask = halting b.line.flushTask from rfl]
      cases hflush : b.flushTask <;> simp [stop, line, Line.order, halting, hflush]
    · refine .inl ?_
      have hstop := line_stop b b.flushTask
      exact congrArg (fun l => { l with flushTask := none }) hstop
  · exact .inl rfl

/-- A deferred send is started. -/
def Line.deferred (l : Line) (wait : Span) : Line :=
  { l.order [.start (.deferredSend l.nextTask wait)] with
    pendingSend := some l.nextTask
    nextTask := l.nextTask + 1 }

/-- The deferred send comes when the distance to the last send has been kept. -/
theorem nanos_sendDelay {wait : Span} (h : b.sendDelay now = .ok wait) {last : Instant}
    (hlast : b.lastSend = some last) :
    now.nanos + wait.nanos = last.nanos + b.config.minSendInterval.nanos := by
  unfold sendDelay Instant.plus Instant.plus? at h
  rw [hlast] at h
  dsimp only at h
  split at h
  · rename_i moved hmoved
    split at hmoved
    · obtain rfl := Option.some.inj hmoved
      cases h
      simp only [Instant.since]
      omega
    · cases hmoved
  · cases h

/-- A send is deferred if none is deferred already and tasks can be started. -/
theorem deferSend_cases (h : b.deferSend now = .ok b') :
    ((b.pendingSend.isSome = true ∨ b.hasWorkers = false) ∧ b'.line = b.line) ∨
      b.pendingSend = none ∧ b.hasWorkers = true ∧
        ∃ wait, b.sendDelay now = .ok wait ∧ b'.line = b.line.deferred wait := by
  unfold deferSend at h
  split at h
  · rename_i hpending
    cases h
    exact .inl ⟨.inl hpending, rfl⟩
  · rename_i hpending
    have hnone : b.pendingSend = none := by simpa using hpending
    cases hwait : b.sendDelay now with
    | error e =>
        rw [hwait] at h
        cases h
    | ok wait =>
        rw [hwait] at h
        cases h
        cases hworkers : b.hasWorkers with
        | false => exact .inl ⟨.inr rfl, by simp [startTask, hworkers, line, hnone]⟩
        | true =>
            exact .inr ⟨hnone, rfl, wait, rfl, by simp [startTask, hworkers, line, Line.deferred,
              Line.order]⟩

/-- What becomes of a request event: it is refused, or it joins the line. A line that is full is
drained, and for any other a send is deferred. -/
theorem trackRequest_cases {e : Event} {r : Bool × Batcher} (h : b.trackRequest e now = .ok r) :
    (r.1 = false ∧ r.2.line = b.line) ∨ r.1 = true ∧
      let l := b.line.join (some (b.attributed e))
      r.2.line = (l.cancelled.drained now).order (l.delivering now b.serial) ∨
        ((b.pendingSend.isSome = true ∨ b.hasWorkers = false) ∧ r.2.line = l) ∨
          b.pendingSend = none ∧ b.hasWorkers = true ∧
            ∃ wait, b.sendDelay now = .ok wait ∧ r.2.line = l.deferred wait := by
  unfold trackRequest at h
  split at h
  · cases h
    exact .inl ⟨rfl, rfl⟩
  · dsimp only at h
    split at h
    · cases h
      exact .inl ⟨rfl, rfl⟩
    · split at h
      · cases h
        refine .inr ⟨rfl, .inl ?_⟩
        rw [line_startDelivery, line_cancelPending, serial_cancelPending]
        rfl
      · refine .inr ?_
        revert h
        generalize hd : deferSend _ now = d
        intro h
        cases d with
        | error e => cases h
        | ok b' =>
            cases h
            exact ⟨rfl, .inr (deferSend_cases hd)⟩

/-- The last batch before an unload goes to the sink at once, or a task is left to carry it. -/
theorem line_sendLast (b : Batcher) (batch : Batch) (now : Instant) :
    ∃ orders lasts, (∀ o ∈ orders, ∃ r, o = .start (.farewell r)) ∧
      (lasts = [] ∨ lasts = [(now, batch)]) ∧ (b.sendLast batch now).2.line =
        { b.line.order orders with farewells := b.farewells ++ lasts } := by
  unfold sendLast
  split
  · refine ⟨[], [(now, batch)], nofun, .inr rfl, ?_⟩
    simp [line, Line.order]
  · split
    · refine ⟨[], [], nofun, .inl rfl, ?_⟩
      simp [line, Line.order]
    · rename_i r _
      refine ⟨if b.hasWorkers then [.start (.farewell r)] else [], [], ?_, .inl rfl, ?_⟩
      · split <;> simp
      · rw [line_start]
        simp [line, Line.order]

end Lines

/-! ## Turns -/

/-- The request event that a stretch accepts. -/
def accepts? : Work Call BatchJob → Start Batcher → Result (Ending Answer BatchJob) → Option Event
  | .call (.trackRequest e), i, .ended (.answers (.accepted true)) => some (i.state.attributed e)
  | _, _, _ => none

/-- The stretch discards everything. -/
def clears : Work Call BatchJob → Result (Ending Answer BatchJob) → Bool
  | .call .clear, .ended _ => true
  | _, _ => false

/-- The stretch shuts the batcher down. -/
def shuts : Work Call BatchJob → Result (Ending Answer BatchJob) → Bool
  | .call .shutdown, .ended _ => true
  | _, _ => false

/-- The caller hands the batch that it drains to the sink. -/
def handsOver : Work Call BatchJob → Bool
  | .call .flushRequests => true
  | .call .flushOnUnload => true
  | _ => false

/-- The work is a deferred send. -/
def isDeferred : Work Call BatchJob → Bool
  | .job (.deferredSend _ _) => true
  | _ => false

/-- The batch is being handed to a sink. -/
def Carries (batch : Batch) : Wait → Prop
  | .deliver b => b = batch
  | .call r => r.body = batch.toJson?
  | _ => False

theorem Carries.sends {batch : Batch} {w : Wait} (h : Carries batch w) : w.Sends batch.events := by
  cases w with
  | deliver b =>
      obtain rfl : b = batch := h
      exact rfl
  | call r => exact ⟨batch, rfl, h⟩
  | sleep s => exact h
  | token => exact h
  | turn t => exact h

/-- What a stretch does to request events and timers. -/
inductive Turn (work : Work Call BatchJob) (i : Start Batcher)
    (r : Result (Ending Answer BatchJob)) (b : Batcher) : Prop where
  | rests (orders : List (Command BatchJob Nat)) (horders : ∀ o ∈ orders, o = .start .flushAuth)
      (haccepts : accepts? work i r = none) (hclears : clears work r = false)
      (hends : ∀ e, r = .ended e → isDeferred work = false)
      (hline : b.line = i.state.line.order orders)
  /-- The timer of the periodic flush starts anew. -/
  | arms (haccepts : accepts? work i r = none) (hclears : clears work r = false)
      (hcall : work.isCall = true)
      (hline : b.line =
        { i.state.line.order
            (.start (.periodicFlush i.state.nextTask) :: halting i.state.flushTask) with
          flushTask := some i.state.nextTask
          nextTask := i.state.nextTask + 1 })
  /-- It cannot be started. -/
  | disarms (haccepts : accepts? work i r = none) (hclears : clears work r = false)
      (hcall : work.isCall = true)
      (hline : b.line =
        { i.state.line.order (halting i.state.flushTask) with flushTask := none })
  | closes (haccepts : accepts? work i r = none) (hclears : clears work r = false)
      (hshuts : shuts work r = true)
      (hline : b.line = ({ i.state.line.order (halting i.state.flushTask) with
        flushTask := none } : Line).cancelled)
  | discards (haccepts : accepts? work i r = none) (hclears : clears work r = true)
      (hline : b.line = { i.state.line.cancelled with requests := [], lastSend := none })
  /-- An event joins the line; a send is deferred already, or none can be. -/
  | queues (e : Event) (haccepts : accepts? work i r = some e) (hclears : clears work r = false)
      (hpending : i.state.pendingSend.isSome = true ∨ i.state.hasWorkers = false)
      (hline : b.line = i.state.line.join (some e))
  | defers (e : Event) (wait : Span) (haccepts : accepts? work i r = some e)
      (hclears : clears work r = false) (hpending : i.state.pendingSend = none)
      (hworkers : i.state.hasWorkers = true) (hwait : i.state.sendDelay i.now = .ok wait)
      (hline : b.line = (i.state.line.join (some e)).deferred wait)
  /-- A caller has the line drained. -/
  | sends (joining : Option Event) (orders : List (Command BatchJob Nat))
      (lasts : List (Instant × Batch)) (haccepts : accepts? work i r = joining)
      (hclears : clears work r = false) (hcall : work.isCall = true) (hbegins : i.cue = none)
      (hgoes : r ≠ .paused .drops)
      (horders : if handsOver work then (∀ o ∈ orders, ∃ r, o = .start (.farewell r)) ∧
          (lasts.map (·.2)).Sublist (batch? i.state.requests i.now i.state.serial).toList
        else orders = (i.state.line.join joining).delivering i.now i.state.serial ∧ lasts = [])
      (hline : b.line =
        { ((i.state.line.join joining).cancelled.drained i.now).order orders with
          farewells := i.state.farewells ++ lasts })
  /-- The deferred send has come. -/
  | fires (task : Nat) (wait : Span) (haccepts : accepts? work i r = none)
      (hclears : clears work r = false) (hwork : work = .job (.deferredSend task wait))
      (hends : r = .ended .leaves)
      (hcue : i.cue = none → wait.isPositive = false)
      (hline : b.line =
        { (i.state.line.drained i.now).order (i.state.line.delivering i.now i.state.serial) with
          pendingSend := if i.state.pendingSend = some task then none else i.state.pendingSend })

/-- What work may wait for. Flushes of session events are free to. -/
def Pauses (i : Start Batcher) (b : Batcher) (w : Wait) : Work Call BatchJob → Prop
  | .call .flushRequests => i.cue = none ∧ b.requests = [] ∧
    ∃ batch, batch? i.state.requests i.now i.state.serial = some batch ∧ Carries batch w
  | .job (.deliver batch) => i.cue = none ∧ Carries batch w
  | .job (.farewell r) => i.cue = none ∧ w = .call r
  | .job (.deferredSend _ wait) => i.cue = none ∧ wait.isPositive = true ∧ w = .sleep wait
  | work => flushes work = true

/-- What a stretch does. -/
structure Does (work : Work Call BatchJob) (i : Start Batcher)
    (r : Result (Ending Answer BatchJob)) (b : Batcher) : Prop where
  turn : Turn work i r b
  pauses : ∀ w, r = .paused (.waits w) → Pauses i b w work
  again : ∀ j, r = .ended (.again j) → ∃ task,
    work = .job (.periodicFlush task) ∧ j = .periodicFlush task
  goesOn : r ≠ .paused .stays
  faults : r = .paused .faults → work.isCall = true

/-- Every stretch of the work does what it may. -/
def turning (work : Work Call BatchJob) : Pact Unit Batcher :=
  fun _ i p b _ => Does work i (.paused p) b

def turns : Rules Unit Batcher Call Answer BatchJob where
  memo := ()
  pact := turning
  outcome work _ i e b := Does work i (.ended e) b

section Work

variable {work : Work Call BatchJob} {i : Start Batcher} {b : Batcher}

theorem accepts?_paused (work : Work Call BatchJob) (i : Start Batcher) (p : Pause) :
    accepts? work i (.paused p) = none := by
  unfold accepts?
  split
  · rename_i h
    cases h
  · rfl

theorem clears_paused (work : Work Call BatchJob) (p : Pause) :
    clears work (.paused p) = false := by
  unfold clears
  split
  · rename_i h
    cases h
  · rfl

theorem Turn.of_line {r : Result (Ending Answer BatchJob)} (haccepts : accepts? work i r = none)
    (hclears : clears work r = false) (hends : ∀ e, r = .ended e → isDeferred work = false)
    (h : b.line = i.state.line) : Turn work i r b := by
  refine .rests [] nofun haccepts hclears hends ?_
  rw [h]
  simp [Line.order]

/-- The work pauses and leaves the line alone. -/
theorem Does.of_pause {p : Pause} (h : b.line = i.state.line) (hp : p ≠ .stays)
    (hfaults : p = .faults → work.isCall = true)
    (hw : ∀ w, p = .waits w → Pauses i b w work) : Does work i (.paused p) b where
  turn := .of_line (accepts?_paused ..) (clears_paused ..) nofun h
  pauses := by
    rintro w hw'
    cases hw'
    exact hw w rfl
  again := nofun
  goesOn := fun hstays => hp (by cases hstays; rfl)
  faults := fun h => hfaults (by cases h; rfl)

/-- A task ends and has left the line alone. -/
theorem Does.of_leaves {j : BatchJob} (hj : isDeferred (.job j) = false)
    (h : b.line = i.state.line) : Does (.job j) i (.ended .leaves) b where
  turn := .of_line rfl rfl (fun _ _ => hj) h
  pauses := nofun
  again := nofun
  goesOn := nofun
  faults := nofun

/-- A caller gets its answer. -/
theorem Does.of_answers {k : Call} {a : Answer}
    (h : Turn (.call k) i (.ended (.answers a)) b) :
    Does (.call k) i (.ended (.answers a)) b where
  turn := h
  pauses := nofun
  again := nofun
  goesOn := nofun
  faults := nofun

/-! ## All work -/

/-- The work begins. -/
def Opening (i : Start Batcher) (b : Batcher) : Prop := i.cue = none ∧ b = i.state

/-- The stretch has left the line alone. -/
def Even (i : Start Batcher) (b : Batcher) : Prop := b.line = i.state.line

theorem Opening.even {i : Start Batcher} {b : Batcher} (h : Opening i b) : Even i b := by
  obtain ⟨-, rfl⟩ := h
  rfl

/-- The sink has ended the wait. -/
def Resumed (i : Start Batcher) (b : Batcher) : Prop := i.cue.isSome = true ∧ Even i b

/-- What is known while a batch is sent is known at its end, unless there was a wait. -/
theorem triple_sends {A : Start Batcher → Batcher → Prop} {batch : Batch}
    (hserial : ∀ i b n, A i b → A i { b with serial := n })
    (hwaits : ∀ i b w, A i b → Carries batch w → Does work i (.paused (.waits w)) b) :
    Triple (turning work) (fun _ i b => A i b) (send batch)
      fun _ i _ b => A i b ∨ Resumed i b := by
  have hawait (w : Wait) (hw : Carries batch w) :
      Triple (turning work) (fun _ i b => A i b) (Activity.await w) fun _ i _ b => Resumed i b :=
    triple_await fun m i b h => ⟨m, hwaits i b w h hw,
      fun now c => .of_pause rfl nofun nofun nofun, fun a now c => ⟨rfl, rfl⟩⟩
  refine Triple.bind (M := fun _ i _ b => A i b) (triple_get fun _ _ _ h => h) fun before => ?_
  cases before.sink with
  | service accepts =>
      exact (hawait (.deliver batch) rfl).conseq (fun _ _ _ h => h) fun _ _ _ _ h => .inr h
  | ingest profile csrf =>
      refine Triple.bind (M := fun _ i request b => A i b ∧
        ∀ r, request = some r → r.body = batch.toJson?) (triple_step ?_) fun request => ?_
      · exact fun m i b h => ⟨hserial i b _ h, fun r hr => body_ingestRequest? hr⟩
      · cases request with
        | none => exact triple_pure fun _ _ _ h => .inl h.1
        | some r =>
            refine Triple.of_fact fun hr => ?_
            refine Triple.bind (hawait (.call r) (hr r rfl)) fun a => ?_
            cases a with
            | error f => exact triple_pure fun _ _ _ h => .inr h
            | ok response => exact triple_pure fun _ _ _ h => .inr h

theorem triple_delivers {A : Start Batcher → Batcher → Prop} {batch : Batch}
    (hserial : ∀ i b n, A i b → A i { b with serial := n })
    (hcount : ∀ i b o, A i b → A i (b.count o))
    (hwaits : ∀ i b w, A i b → Carries batch w → Does work i (.paused (.waits w)) b) :
    Triple (turning work) (fun _ i b => A i b) (deliver batch)
      fun _ i _ b => A i b ∨ Resumed i b := by
  refine Triple.bind (M := fun _ i _ b => A i b)
    (triple_modify fun _ i b h => hcount i b _ h) fun _ => ?_
  refine Triple.bind (triple_sends hserial hwaits) fun result => ?_
  cases result with
  | ok u => exact triple_modify fun _ i b h => h.imp (hcount i b _) fun hr => hr
  | error f => exact triple_modify fun _ i b h => h.imp (hcount i b _) fun hr => hr

theorem even_flushAuth (hwork : ∀ i b w, Pauses i b w work) :
    Maintains (turning work) (fun _ i b => Even i b) flushAuth := by
  refine Maintains.bind maintains_get fun before => ?_
  refine Maintains.ite (maintains_pure _) ?_
  refine Maintains.bind (triple_step fun _ _ _ h => h) fun batch => ?_
  refine Maintains.bind (triple_modify fun _ _ _ h => h) fun _ => ?_
  refine Maintains.bind ?_ fun result => ?_
  · refine (triple_sends (fun _ _ _ h => h) fun i b w h _ => ?_).conseq (fun _ _ _ h => h)
      fun _ _ _ _ h => h.elim (fun h => h) fun hr => hr.2
    exact .of_pause h nofun nofun fun w _ => hwork i b w
  · cases result with
    | ok u => exact triple_modify fun _ _ _ h => h
    | error f =>
        refine triple_modify fun _ i b h => ?_
        dsimp only
        split <;> exact h

theorem even_sleep (hwork : ∀ i b w, Pauses i b w work) (span : Span) :
    Maintains (turning work) (fun _ i b => Even i b) (Activity.sleep span) := by
  refine Maintains.ite ?_ (maintains_pure ())
  refine triple_await fun m i b h => ⟨m, ?_, fun now c => .of_pause rfl nofun nofun nofun,
    fun _ _ _ => rfl⟩
  exact .of_pause h nofun nofun fun w _ => hwork i b w

/-- A flush of request events has drained the line that it found. -/
structure Emptied (i : Start Batcher) (b : Batcher) : Prop where
  begins : i.cue = none
  line : b.line = i.state.line.cancelled.drained i.now

theorem Emptied.turn {i : Start Batcher} {b : Batcher} {r : Result (Ending Answer BatchJob)}
    (h : Emptied i b) (haccepts : accepts? (.call .flushRequests) i r = none)
    (hclears : clears (.call .flushRequests) r = false) (hgoes : r ≠ .paused .drops) :
    Turn (.call .flushRequests) i r b := by
  refine .sends none [] [] haccepts hclears rfl h.begins hgoes ⟨nofun, List.nil_sublist _⟩ ?_
  rw [h.line]
  simp [Line.order, Line.join, Line.cancelled, Line.drained, Batcher.line]

theorem Emptied.does {i : Start Batcher} {b : Batcher} (h : Emptied i b) {batch : Batch}
    (hbatch : some batch = batch? i.state.requests i.now i.state.serial) {w : Wait}
    (hw : Carries batch w) :
    Does (.call .flushRequests) i (.paused (.waits w)) b where
  turn := h.turn rfl rfl nofun
  pauses := by
    rintro w' hw'
    cases hw'
    exact ⟨h.begins, congrArg (·.requests) h.line, batch, hbatch.symm, hw⟩
  again := nofun
  goesOn := nofun
  faults := nofun

theorem triple_flushRequests : Triple (turning (.call .flushRequests)) (fun _ i b => Opening i b)
    flushRequests fun _ i _ b => Turn (.call .flushRequests) i (.ended (.answers .done)) b := by
  refine Triple.bind (M := fun _ i _ b => i.cue = none ∧ b = i.state.cancelPending)
    (triple_modify fun _ i b h => ⟨h.1, congrArg _ h.2⟩) fun _ => ?_
  refine Triple.bind (M := fun _ i batch b => Emptied i b ∧
    batch = batch? i.state.requests i.now i.state.serial) (triple_step ?_) fun batch => ?_
  · rintro m i b ⟨hbegins, rfl⟩
    refine ⟨⟨hbegins, ?_⟩, ?_⟩
    · rw [line_drainRequests, line_cancelPending]
    · rw [fst_drainRequests, serial_cancelPending]
      exact congrArg (fun l => batch? l.requests i.now i.state.serial)
        (line_cancelPending i.state)
  cases batch with
  | none => exact triple_pure fun _ i b h => h.1.turn rfl rfl nofun
  | some batch =>
      have hserial (i : Start Batcher) (b : Batcher) (n : Nat)
          (h : Emptied i b ∧ some batch = batch? i.state.requests i.now i.state.serial) :
          Emptied i { b with serial := n } ∧
            some batch = batch? i.state.requests i.now i.state.serial :=
        ⟨⟨h.1.begins, h.1.line⟩, h.2⟩
      refine (triple_delivers hserial (fun i b o h => ⟨⟨h.1.begins, h.1.line⟩, h.2⟩)
        fun i b w h hw => h.1.does h.2 hw).conseq (fun _ _ _ h => h) fun _ i _ b h => ?_
      · rcases h with h | h
        · exact h.1.turn rfl rfl nofun
        · exact .of_line rfl rfl (fun _ _ => rfl) h.2

theorem turn_flushOnUnload {i : Start Batcher} (hbegins : i.cue = none) (a : Answer) :
    Turn (.call .flushOnUnload) i (.ended (.answers a)) (i.state.flushOnUnload i.now).2 := by
  have hfst := fst_drainRequests i.state.cancelPending i.now
  have hline := line_drainRequests i.state.cancelPending i.now
  rw [line_cancelPending] at hline
  rw [serial_cancelPending] at hfst
  have hrequests : i.state.cancelPending.requests = i.state.requests :=
    congrArg (·.requests) (line_cancelPending i.state)
  rw [hrequests] at hfst
  unfold flushOnUnload
  split
  · rename_i b hb
    rw [hb] at hline
    refine .sends none [] [] rfl rfl rfl hbegins nofun ⟨nofun, List.nil_sublist _⟩ ?_
    rw [hline]
    simp [Line.order, Line.join, Line.cancelled, Line.drained, line]
  · rename_i batch b hb
    rw [hb] at hline hfst
    obtain ⟨orders, lasts, horders, hlasts, hsent⟩ := line_sendLast b batch i.now
    refine .sends none orders lasts rfl rfl rfl hbegins nofun ⟨horders, ?_⟩ ?_
    · rw [← hfst]
      rcases hlasts with rfl | rfl
      · exact List.nil_sublist _
      · exact List.Sublist.refl _
    · have hfarewells : b.farewells = i.state.farewells := congrArg (·.farewells) hline
      rw [hsent, hline, hfarewells]
      simp [Line.order, Line.join, Line.cancelled, Line.drained, line]

theorem triple_serve_turns (k : Call) : Triple (turning (.call k)) (fun _ i b => Opening i b)
    (serve k) fun _ i a b => Does (.call k) i (.ended (.answers a)) b := by
  cases k with
  | trackAuth e =>
      refine Triple.map (triple_modify ?_)
      rintro m i b ⟨-, rfl⟩
      obtain ⟨orders, horders, hline⟩ := line_trackAuth i.state e
      exact .of_answers (.rests orders horders rfl rfl (fun _ _ => rfl) hline)
  | trackRequest e =>
      refine Triple.map (triple_attempt ?_ ?_)
      · rintro m i b ⟨-, rfl⟩
        exact .of_pause rfl nofun (fun _ => rfl) nofun
      · rintro m i b r ⟨hbegins, rfl⟩ hr
        refine .of_answers ?_
        rcases trackRequest_cases hr with ⟨hno, hline⟩ | ⟨hyes, hline | ⟨hpending, hline⟩ |
          ⟨hpending, hworkers, wait, hwait, hline⟩⟩
        · exact .of_line (by rw [hno]; rfl) rfl (fun _ _ => rfl) hline
        · refine .sends (some _) _ [] (by rw [hyes]; rfl) rfl rfl hbegins nofun ⟨rfl, rfl⟩ ?_
          rw [hline]
          simp [Line.order, Line.join, Line.cancelled, Line.drained, line]
        · exact .queues _ (by rw [hyes]; rfl) rfl hpending hline
        · exact .defers _ wait (by rw [hyes]; rfl) rfl hpending hworkers hwait hline
  | flushAuth =>
      have heven : Maintains (turning (.call .flushAuth)) (fun _ i b => Even i b) flushAuth :=
        even_flushAuth fun _ _ _ => rfl
      exact Triple.map (heven.conseq (fun _ _ _ h => h.even)
        fun _ _ _ _ h => .of_answers (.of_line rfl rfl (fun _ _ => rfl) h))
  | flushRequests =>
      exact Triple.map (triple_flushRequests.conseq (fun _ _ _ h => h)
        fun _ _ _ _ h => .of_answers h)
  | flushOnUnload =>
      refine Triple.map (triple_step ?_)
      rintro m i b ⟨hbegins, rfl⟩
      exact .of_answers (turn_flushOnUnload hbegins _)
  | startPeriodic =>
      refine Triple.map (triple_modify ?_)
      rintro m i b ⟨-, rfl⟩
      refine .of_answers ?_
      rcases line_startPeriodic i.state with hline | hline | hline
      · exact .of_line rfl rfl (fun _ _ => rfl) hline
      · exact .disarms rfl rfl rfl hline
      · exact .arms rfl rfl rfl hline
  | shutdown =>
      refine Triple.map (triple_modify ?_)
      rintro m i b ⟨-, rfl⟩
      exact .of_answers (.closes rfl rfl rfl (line_shutdown i.state))
  | clear =>
      refine Triple.map (triple_modify ?_)
      rintro m i b ⟨-, rfl⟩
      exact .of_answers (.discards rfl rfl (line_clear i.state))
  | setVisibility inBackground =>
      refine Triple.map (triple_modify ?_)
      rintro m i b ⟨-, rfl⟩
      exact .of_answers (.of_line rfl rfl (fun _ _ => rfl) rfl)
  | setUser user =>
      refine Triple.map (triple_modify ?_)
      rintro m i b ⟨-, rfl⟩
      exact .of_answers (.of_line rfl rfl (fun _ _ => rfl) rfl)

/-- A deferred send sleeps, if it has to, and then drains the line that it finds. -/
theorem triple_deferredSend (task : Nat) (wait : Span) :
    Triple (turning (.job (.deferredSend task wait))) (fun _ i b => Opening i b)
      (perform (.deferredSend task wait))
      fun _ i next b => next = none ∧
        Does (.job (.deferredSend task wait)) i (.ended .leaves) b := by
  refine Triple.bind
    (M := fun _ i _ b => b = i.state ∧ (i.cue = none → wait.isPositive = false)) ?_ fun _ => ?_
  · refine Triple.ite (fun hpositive => ?_) fun hnot => ?_
    · refine triple_await fun m i b h => ⟨m, ?_, fun now c => .of_pause rfl nofun nofun nofun,
        fun _ _ _ => ⟨rfl, nofun⟩⟩
      obtain ⟨hbegins, rfl⟩ := h
      refine .of_pause rfl nofun nofun fun w hw => ?_
      cases hw
      exact ⟨hbegins, hpositive, rfl⟩
    · exact triple_pure fun m i b h => ⟨h.2, fun _ => by simpa using hnot⟩
  refine Triple.bind (M := fun _ i _ b => b = i.state.startDelivery i.now ∧
    (i.cue = none → wait.isPositive = false)) (triple_change ?_) fun _ => ?_
  · rintro m i b ⟨rfl, hcue⟩
    exact ⟨rfl, hcue⟩
  refine Triple.bind (M := fun _ i _ b => Does (.job (.deferredSend task wait)) i
    (.ended .leaves) b) (triple_modify ?_) fun _ => triple_pure fun _ _ _ h => ⟨rfl, h⟩
  rintro m i b ⟨rfl, hcue⟩
  have hline := line_startDelivery i.state i.now
  have hpending : (i.state.startDelivery i.now).pendingSend = i.state.pendingSend :=
    congrArg (·.pendingSend) hline
  refine ⟨.fires task wait rfl rfl rfl rfl hcue ?_, nofun, nofun, nofun, nofun⟩
  rw [hpending]
  split
  · exact congrArg (fun l => { l with pendingSend := none }) hline
  · exact hline

theorem triple_perform_turns (j : BatchJob) : Triple (turning (.job j)) (fun _ i b => Opening i b)
    (perform j) fun _ i next b =>
      Does (.job j) i (.ended (match next with | some j => .again j | none => .leaves)) b := by
  cases j with
  | flushAuth =>
      have heven : Maintains (turning (.job .flushAuth)) (fun _ i b => Even i b) flushAuth :=
        even_flushAuth fun _ _ _ => rfl
      exact Triple.map (heven.conseq (fun _ _ _ h => h.even) fun _ _ _ _ h => .of_leaves rfl h)
  | deliver batch =>
      have hdelivers : Triple (turning (.job (.deliver batch))) (fun _ i b => Opening i b)
          (deliver batch) fun _ i _ b => (i.cue = none ∧ Even i b) ∨ Resumed i b := by
        refine (triple_delivers (fun _ _ _ h => h) (fun _ _ _ h => h) fun i b w h hw => ?_).conseq
          (fun _ _ _ h => ⟨h.1, h.even⟩) fun _ _ _ _ h => h
        refine .of_pause h.2 nofun nofun fun w' hw' => ?_
        cases hw'
        exact ⟨h.1, hw⟩
      exact Triple.map (hdelivers.conseq (fun _ _ _ h => h)
        fun _ _ _ _ h => .of_leaves rfl (h.elim (·.2) (·.2)))
  | farewell request =>
      refine Triple.bind (M := fun _ i _ b => Even i b) (triple_await fun m i b h => ⟨m, ?_,
        fun now c => .of_pause rfl nofun nofun nofun, fun _ _ _ => rfl⟩) fun _ => ?_
      · refine .of_pause h.even nofun nofun fun w hw => ?_
        cases hw
        exact ⟨h.1, rfl⟩
      · exact triple_pure fun _ _ _ h => .of_leaves rfl h
  | deferredSend task wait =>
      refine (triple_deferredSend task wait).conseq (fun _ _ _ h => h) ?_
      rintro m i next b ⟨rfl, h⟩
      exact h
  | periodicFlush task =>
      have hflushes (i : Start Batcher) (b : Batcher) (w : Wait) :
          Pauses i b w (.job (.periodicFlush task)) := rfl
      refine Triple.bind (M := fun _ i _ b => Even i b) (triple_get fun _ _ _ h => h.even)
        fun before => ?_
      refine Triple.bind (even_sleep hflushes _) fun _ => ?_
      refine Triple.bind (even_flushAuth hflushes) fun _ => triple_pure fun _ i b h => ?_
      refine ⟨.of_line rfl rfl (fun _ _ => rfl) h, nofun, fun j hj => ?_, nofun, nofun⟩
      cases hj
      exact ⟨task, rfl, rfl⟩

end Work

theorem turns_keptBy : turns.KeptBy workplace where
  drops _ _ _ := .of_pause rfl nofun nofun nofun
  meets work now b := by
    cases work with
    | call k =>
        have hcall : Triple (turning (.call k)) (fun _ i b => Opening i b)
            (workplace.carryOut (.call k)) fun _ i e b => Does (.call k) i (.ended e) b :=
          Triple.map (triple_serve_turns k)
        exact hcall.meets () ⟨none, now, b⟩ b ⟨rfl, rfl⟩
    | job j =>
        have hjob : Triple (turning (.job j)) (fun _ i b => Opening i b)
            (workplace.carryOut (.job j)) fun _ i e b => Does (.job j) i (.ended e) b := by
          refine Triple.bind (triple_perform_turns j) fun next => ?_
          cases next <;> exact triple_pure fun _ _ _ h => h
        exact hjob.meets () ⟨none, now, b⟩ b ⟨rfl, rfl⟩

end Batcher

end ClientSession
