import ClientSession.Client.Lifecycle

/-!
# A client on virtual time

A world is a client together with scripted services and a clock that moves only when everything
waits: then it moves to the next instant at which a wait ends. The world carries out the work that
the client starts beside its callers, one task at a time in the order in which the tasks became
ready, and keeps a log of what the services were asked.
-/

namespace ClientSession.Simulation

/-- An answer that a service gives after a time. -/
structure Scripted (α : Type) where
  answer : α
  latency : Span

/-- The next answers of the services. A service without a next answer gives its usual one: an empty
JSON object, a batch taken, a demand to sign in. -/
structure Scripts where
  calls : List (Scripted TransportOutcome)
  ingest : List (Scripted TransportOutcome)
  sink : List (Scripted (Except SinkFailure Unit))
  source : List (Scripted (Except IssueFailure IssuedToken))

namespace Scripts

def empty : Scripts := ⟨[], [], [], []⟩

/-- More answers after the ones that are still to come. -/
def append (s t : Scripts) : Scripts :=
  ⟨s.calls ++ t.calls, s.ingest ++ t.ingest, s.sink ++ t.sink, s.source ++ t.source⟩

def next {α : Type} (usual : α) : List (Scripted α) → Scripted α × List (Scripted α)
  | [] => (⟨usual, Span.zero⟩, [])
  | a :: rest => (a, rest)

def emptyObject : TransportOutcome := .ok ⟨200, Table.empty, "\x7b\x7d"⟩

/-- The answer that ends a wait; a turn is not the services' to give. -/
def answer (s : Scripts) : (w : Wait) → Option (Scripted w.Answer) × Scripts
  | .sleep span => (some ⟨(), span⟩, s)
  | .call r =>
    if r.path = Route.metricsIngest then
      (some (next emptyObject s.ingest).1, { s with ingest := (next emptyObject s.ingest).2 })
    else (some (next emptyObject s.calls).1, { s with calls := (next emptyObject s.calls).2 })
  | .deliver _ => (some (next (.ok ()) s.sink).1, { s with sink := (next (.ok ()) s.sink).2 })
  | .token =>
    (some (next (.error .loginRequired) s.source).1,
      { s with source := (next (.error .loginRequired) s.source).2 })
  | .turn _ => (none, s)

end Scripts

/-- What the services were asked, and when. -/
structure Log where
  calls : List (Instant × Request)
  batches : List (Instant × Batch)
  sinkResults : List (Except SinkFailure Unit)
  fetches : List Instant

def Log.empty : Log := ⟨[], [], [], []⟩

/-- When a wait ends, in time since the start; of two that end at once the earlier one is first. -/
structure Due where
  elapsed : Span
  order : Nat

/-- A run that waits, and the answer it will get if that is known. -/
structure Suspended (α : Type) where
  wait : Wait
  drop : Client → Client
  resume : wait.Answer → Instant → Client → Run Client α
  reply : Option (Due × wait.Answer)

/-- Work beside the client's callers. -/
inductive Work where
  | fresh
  | suspended (run : Suspended (Option Job))

structure Task where
  id : Nat
  job : Job
  work : Work
  stopped : Bool

/-- The name under which the client may stop a job. -/
def nameOf : Job → Option TaskName
  | .telemetry (.deferredSend n _) => some (.telemetry n)
  | .telemetry (.periodicFlush n) => some (.telemetry n)
  | .telemetry _ => none
  | .supervision (.refreshTimer n) => some (.supervision n)
  | .supervision (.expiryTimer n) => some (.supervision n)

/-- No sleep lasts longer than thirty years of 365 days. -/
def longestSleep : Span := Span.ofSeconds (86400 * 365 * 30)

/-- The time at which a sleep that starts at `elapsed` ends: the first whole millisecond at which
all of it, or the longest sleep, has passed. -/
def wakeTime (elapsed span : Span) : Span :=
  let slept := min (max span.nanos 0) longestSleep.nanos
  ⟨-((-(elapsed.nanos + slept)) / Span.nanosPerMilli) * Span.nanosPerMilli⟩

/-- The names under which listeners and reactions of tabs can be withdrawn. A name that is given again
no longer reaches what it named before. -/
structure Names where
  listeners : List (String × Nat)
  reactions : List ((Nat × String) × Nat)

def Names.none : Names := ⟨[], []⟩

structure World where
  client : Client
  scripts : Scripts
  start : Instant
  elapsed : Span
  /-- How far the wall clock is from the time that has passed. -/
  skew : Span
  /-- There are timers, and work beside the callers is carried out. -/
  hasTimers : Bool
  tasks : List Task
  /-- The tasks that are ready, the first one first. -/
  queue : List Nat
  nextTask : Nat
  nextDue : Nat
  names : Names
  /-- The tabs that nobody but the client holds any more. -/
  released : List Nat
  log : Log
  fault : Option Fault

namespace World

def now (w : World) : Instant := ⟨w.start.nanos + w.elapsed.nanos + w.skew.nanos⟩

def enqueue (w : World) (id : Nat) : World :=
  if w.queue.contains id then w else { w with queue := w.queue ++ [id] }

/-- Carries out a command of the client. A stopped task is dropped when it comes to its turn. -/
def obey (w : World) : Command Job TaskName → World
  | .start job =>
    { w with
      tasks := w.tasks ++ [⟨w.nextTask, job, .fresh, false⟩]
      queue := w.queue ++ [w.nextTask]
      nextTask := w.nextTask + 1 }
  | .stop name =>
    match w.tasks.find? fun t => nameOf t.job = some name with
    | none => w
    | some t =>
      let tasks := w.tasks.map fun (u : Task) =>
        if u.id = t.id then { u with stopped := true } else u
      { w with tasks := tasks }.enqueue t.id

/-- The task waits for a turn that has come. -/
def isCalled (c : Client) (t : Task) : Bool :=
  match t.work with
  | .suspended run =>
    match run.wait with
    | .turn ticket => c.supervisor.turn.isCalled ticket
    | _ => false
  | .fresh => false

/-- The world after its client has changed. -/
def setClient (w : World) (c : Client) : World :=
  let w := c.agenda.foldl obey { w with client := { c with agenda := [] } }
  (w.tasks.filter (isCalled c)).foldl (fun w t => w.enqueue t.id) w

/-- Notes what a service is asked. -/
def noteWait (w : World) : Wait → World
  | .call r => { w with log := { w.log with calls := w.log.calls ++ [(w.now, r)] } }
  | .deliver b => { w with log := { w.log with batches := w.log.batches ++ [(w.now, b)] } }
  | .token => { w with log := { w.log with fetches := w.log.fetches ++ [w.now] } }
  | _ => w

/-- Notes what a sink answers. -/
def noteAnswer (w : World) : (wait : Wait) → wait.Answer → World
  | .deliver _, answer =>
    let result : Except SinkFailure Unit := answer
    { w with log := { w.log with sinkResults := w.log.sinkResults ++ [result] } }
  | _, _ => w

/-- How far a run has come. -/
inductive Progress (α : Type) where
  | finished (a : α)
  | faulted
  | stays
  | suspended (run : Suspended α)

/-- Goes on with a run as long as it gets its answers at once. -/
def advance {α : Type} : Run Client α → World → Progress α × World
  | .done c a, w => (.finished a, w.setClient c)
  | .fault c f, w => (.faulted, { w.setClient c with fault := some f })
  | .stay c, w => (.stays, w.setClient c)
  | .wait c wait drop resume, w =>
    let w := (w.setClient c).noteWait wait
    match w.scripts.answer wait with
    | (none, _) => (.suspended ⟨wait, drop, resume, none⟩, w)
    | (some a, scripts) =>
      let w := { w with scripts := scripts }
      if a.latency.isPositive then
        if w.hasTimers then
          let due : Due := ⟨wakeTime w.elapsed a.latency, w.nextDue⟩
          (.suspended ⟨wait, drop, resume, some (due, a.answer)⟩,
            { w with nextDue := w.nextDue + 1 })
        else (.faulted, { w with fault := some .overflow })
      else
        let w := w.noteAnswer wait a.answer
        advance (resume a.answer w.now w.client) w

/-- The wait of a run is over. -/
def isOver {α : Type} (w : World) (run : Suspended α) : Bool :=
  match run.reply with
  | some (due, _) => decide (due.elapsed ≤ w.elapsed)
  | none =>
    match run.wait with
    | .turn ticket => w.client.supervisor.turn.isCalled ticket
    | _ => false

/-- Resumes a run whose wait is over. -/
def resume {α : Type} (w : World) (run : Suspended α) : Progress α × World :=
  match run with
  | ⟨wait, _, go, some (_, answer)⟩ =>
    let w := w.noteAnswer wait answer
    advance (go answer w.now w.client) w
  | ⟨.turn ticket, drop, go, none⟩ =>
    match advance (go () w.now w.client) w with
    | (.stays, w) => (.suspended ⟨.turn ticket, drop, go, none⟩, w)
    | r => r
  | run => (.suspended run, w)

/-- Drops a run that waits. -/
def dropRun {α : Type} (w : World) (run : Suspended α) : World :=
  w.setClient (run.drop w.client)

/-! ## Tasks -/

def removeTask (w : World) (id : Nat) : World :=
  { w with tasks := w.tasks.filter (·.id ≠ id), queue := w.queue.filter (· ≠ id) }

def setWork (w : World) (id : Nat) (job : Job) (work : Work) : World :=
  { w with tasks := w.tasks.map fun (t : Task) => if t.id = id then { t with job, work } else t }

/-- The world after a task has run: it has ended, starts over, or waits; if it was stopped
meanwhile it is dropped. A task that faults ends. -/
def afterRun (w : World) (id : Nat) (job : Job) (p : Progress (Option Job)) : World :=
  match p with
  | .finished none => w.removeTask id
  | .finished (some again) =>
    let w := w.setWork id again .fresh
    { w with queue := id :: w.queue.filter (· ≠ id) }
  | .faulted =>
    let w := w.removeTask id
    { w with client := w.client.abandonJob job, fault := none }
  | .stays => w
  | .suspended run =>
    if w.tasks.any fun t => t.id = id && t.stopped then (w.removeTask id).dropRun run
    else w.setWork id job (.suspended run)

/-- Runs the task that is ready. -/
def runTask (w : World) (t : Task) : World :=
  match t.work, t.stopped with
  | .fresh, true => w.removeTask t.id
  | .suspended run, true => (w.removeTask t.id).dropRun run
  | .fresh, false =>
    let r := advance (Client.perform t.job w.now w.client) w
    r.2.afterRun t.id t.job r.1
  | .suspended run, false =>
    let r := w.resume run
    r.2.afterRun t.id t.job r.1

/-- Runs tasks until none is ready, at most so many. -/
def runTasks : Nat → World → World
  | 0, w => w
  | fuel + 1, w =>
    match w.queue with
    | [] => w
    | id :: rest =>
      let w := { w with queue := rest }
      match w.tasks.find? (·.id = id) with
      | none => runTasks fuel w
      | some t => runTasks fuel (w.runTask t)

/-- When the wait of a task ends. -/
def dueOf (t : Task) : Option Due :=
  match t.work with
  | .suspended run => run.reply.map (·.1)
  | .fresh => none

/-- The world at a later time; the tasks whose waits have ended are ready. -/
def jump (w : World) (elapsed : Span) : World :=
  let w := { w with elapsed := elapsed }
  let ended := w.tasks.filterMap fun t => (dueOf t).bind fun due =>
    if due.elapsed ≤ elapsed then some (due, t.id) else none
  let ordered := ended.mergeSort fun a b =>
    decide (a.1.elapsed < b.1.elapsed) ||
      (!decide (b.1.elapsed < a.1.elapsed) && decide (a.1.order ≤ b.1.order))
  ordered.foldl (fun w e => w.enqueue e.2) w

/-! ## Tabs -/

def mapTabs (w : World) (f : Tabs → Tabs) : World :=
  { w with client := { w.client with tabs := f w.client.tabs } }

/-- Listens for changes under a name. -/
def listen (w : World) (name : String) : World :=
  let id := w.client.tabs.nextListener
  { w.mapTabs fun t => (t.listen (.note name)).2 with
    names := { w.names with listeners := (name, id) :: w.names.listeners } }

/-- Withdraws the listener that has the name. -/
def unlisten (w : World) (name : String) : World :=
  match w.names.listeners.lookup name with
  | some id => w.mapTabs (·.unlisten id)
  | none => w

/-- Notes the ends of a tab's session under a name. -/
def watch (w : World) (tab : Nat) (name : String) : World :=
  let r := w.client.tabs.addReaction tab (.note name)
  { w.mapTabs fun _ => r.2 with
    names := { w.names with reactions := ((tab, name), r.1) :: w.names.reactions } }

/-- Withdraws the reaction of a tab that has the name. -/
def unwatch (w : World) (tab : Nat) (name : String) : World :=
  match w.names.reactions.lookup (tab, name) with
  | some id => w.mapTabs (·.removeReaction tab id)
  | none => w

/-- Lets go of a tab; it is closed unless the client holds it. -/
def release (w : World) (tab : Nat) : World :=
  let w := { w with released := tab :: w.released }
  if tab = w.client.own then w else w.mapTabs (·.closeTab tab)

/-- Somebody beside the client holds the tab. -/
def holds (w : World) (tab : Nat) : Bool :=
  !w.released.contains tab && (w.client.tabs.tab? tab).isSome

/-- Forgets what was observed so far. -/
def forgetObserved (w : World) : World :=
  let c := w.client
  { w with
    log := .empty
    client := { c with
      tabs := { c.tabs with history := [] }
      gate := { c.gate with shown := [] }
      batcher := { c.batcher with farewells := [], tally := .zero }
      validator := { c.validator with tally := .zero }
      supervisor := { c.supervisor with tally := .zero }
      tally := .zero
      latencies := [] } }

end World

end ClientSession.Simulation
