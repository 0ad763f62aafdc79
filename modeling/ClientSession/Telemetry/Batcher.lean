import ClientSession.Activity
import ClientSession.Config
import ClientSession.Http.Route
import ClientSession.Http.SecurityHeaders
import ClientSession.Tally

/-!
# Batching of events

Session events are collected until there are enough of them or a period ends, and are sent as one
batch; those of a batch that was not taken return to the front of the queue once. Request events
are collected without repetitions and sent after a delay that keeps batches apart; a full queue is
sent at once. What is sent goes to a sink. Work beside the caller is started and stopped by
commands, and cannot be started when there is nobody to carry it out.
-/

namespace ClientSession

/-- Where batches go. -/
inductive Sink where
  /-- A service that takes batches as they are; it may refuse the last one before an unload. -/
  | service (acceptsLast : Bool)
  /-- The route of the API that takes batches as JSON. -/
  | ingest (profile : DeviceProfile) (csrf : Option String)

structure QueuedEvent where
  event : Event
  /-- The event was part of a batch that was not taken. -/
  requeued : Bool
deriving DecidableEq

/-- Work of a batcher beside its callers. -/
inductive BatchJob where
  | flushAuth
  | deliver (batch : Batch)
  /-- A last batch before an unload, whose outcome nobody waits for. -/
  | farewell (request : Request)
  | deferredSend (task : Nat) (wait : Span)
  | periodicFlush (task : Nat)

structure Batcher where
  config : BatcherConfig
  sink : Sink
  /-- Work beside the callers can be started. -/
  hasWorkers : Bool
  auth : List QueuedEvent
  requests : List Event
  /-- When each request event that still counts for repetitions was accepted. -/
  recent : Table String Instant
  inBackground : Bool
  user : Option String
  lastSend : Option Instant
  pendingSend : Option Nat
  flushTask : Option Nat
  /-- The number of times that everything was discarded. -/
  generation : Nat
  nextTask : Nat
  serial : Nat
  tally : Tally
  commands : List (Command BatchJob Nat)
  /-- The last batches that were handed to a service before an unload. -/
  farewells : List (Instant × Batch)

namespace Batcher

def new (config : BatcherConfig) (sink : Sink) (hasWorkers : Bool) : Batcher :=
  ⟨config, sink, hasWorkers, [], [], Table.empty, false, none, none, none, none, 0, 0, 0, .zero,
    [], []⟩

def count (b : Batcher) (o : Outcome) : Batcher := { b with tally := b.tally.add o }

/-- Starts work that nobody stops; whether it could be started. -/
def start (b : Batcher) (job : BatchJob) : Bool × Batcher :=
  if b.hasWorkers then (true, { b with commands := b.commands ++ [.start job] }) else (false, b)

def stop (b : Batcher) (task : Option Nat) : Batcher :=
  match task with
  | some n => { b with commands := b.commands ++ [.stop n] }
  | none => b

/-- Starts work under a number of its own; the number, if it could be started. -/
def startTask (b : Batcher) (job : Nat → BatchJob) : Option Nat × Batcher :=
  if b.hasWorkers then
    (some b.nextTask, { b with
      commands := b.commands ++ [.start (job b.nextTask)], nextTask := b.nextTask + 1 })
  else (none, b)

/-- Names the user of the event unless it has one. -/
def attributed (b : Batcher) (e : Event) : Event :=
  if e.userId.isNone then { e with userId := b.user } else e

/-- Calls of the address are not reported. -/
def excludes (b : Batcher) (url : String) : Bool :=
  let path := Route.normalize url
  Route.isReportingExcluded path || b.config.excludedEndpoints.any fun excluded =>
    let excluded := Route.normalize excluded
    path = excluded || (excluded.toList ++ ['/']).isPrefixOf path.toList

/-! ## Batches -/

/-- The batch of the waiting session events, which are no longer in the queue. -/
def drainAuth (b : Batcher) (now : Instant) : Batch × Batcher :=
  (.new (b.auth.map (·.event)) now b.serial, { b with auth := [], serial := b.serial + 1 })

/-- The batch of the waiting request events, which are no longer in the queue. -/
def drainRequests (b : Batcher) (now : Instant) : Option Batch × Batcher :=
  if b.requests.isEmpty then (none, b)
  else (some (.new b.requests now b.serial),
    { b with requests := [], lastSend := some now, serial := b.serial + 1 })

/-- The failure of a batch that has no JSON form. -/
def encodeFailure : SinkFailure :=
  .transport ⟨false,
    "Metrics batch could not be encoded: the year must be in the range 0..=9999."⟩

/-- The request that carries a batch to the ingest route. Its id is not the id of any call. -/
def ingestRequest? (profile : DeviceProfile) (csrf : Option String) (batch : Batch)
    (now : Instant) (serial : Nat) : Option Request :=
  batch.toJson?.map fun body =>
    ({ Request.new .post Route.metricsIngest with body := some body }.stampStart now).secure
      profile csrf now (maxSigned128 + 1 + serial)

/-- Hands a batch to the sink. -/
def send (batch : Batch) : Activity Batcher (Except SinkFailure Unit) := do
  match (← get).sink with
  | .service _ => Activity.await (.deliver batch)
  | .ingest profile csrf =>
    let request ← Activity.step fun now b =>
      (ingestRequest? profile csrf batch now b.serial, { b with serial := b.serial + 1 })
    match request with
    | none => return .error encodeFailure
    | some r =>
      match ← Activity.await (.call r) with
      | .error f => return .error (.transport f)
      | .ok response =>
        return if response.isSuccess then .ok () else .error (.rejected response.status)

/-- Hands over a last batch before an unload; whether it was accepted. -/
def sendLast (b : Batcher) (batch : Batch) (now : Instant) : Bool × Batcher :=
  match b.sink with
  | .service accepts => (accepts, { b with farewells := b.farewells ++ [(now, batch)] })
  | .ingest profile csrf =>
    match ingestRequest? profile csrf batch now b.serial with
    | none => (false, b)
    | some r => { b with serial := b.serial + 1 }.start (.farewell r)

/-! ## Session events -/

/-- What returns to the queue when a batch was not taken: the events that were sent once. -/
def requeued (queued : List QueuedEvent) : List QueuedEvent :=
  (queued.filter fun q => !q.requeued).map fun q => { q with requeued := true }

/-- Sends the waiting session events as one batch. If it is not taken, and nothing was discarded
meanwhile, the events that were sent once return to the front of the queue. -/
def flushAuth : Activity Batcher Unit := do
  let before ← get
  if before.auth.isEmpty then return
  let batch ← Activity.step fun now b => b.drainAuth now
  modify (·.count .attempt)
  match ← send batch with
  | .ok () => modify (·.count .success)
  | .error _ =>
    modify fun b =>
      let b := b.count .failure
      if b.generation = before.generation then { b with auth := requeued before.auth ++ b.auth }
      else b

/-- Accepts a session event; enough of them are sent at once. -/
def trackAuth (b : Batcher) (e : Event) : Batcher :=
  let b := { b with auth := b.auth ++ [⟨b.attributed e, false⟩] }
  if max b.config.authBatchSize 1 ≤ b.auth.length then (b.start .flushAuth).2 else b

/-! ## Request events -/

/-- Sends a batch of request events; it is lost if it is not taken. -/
def deliver (batch : Batch) : Activity Batcher Unit := do
  modify (·.count .attempt)
  match ← send batch with
  | .ok () => modify (·.count .success)
  | .error _ => modify (·.count .failure)

/-- Takes back the deferred send. -/
def cancelPending (b : Batcher) : Batcher := { b.stop b.pendingSend with pendingSend := none }

/-- Starts the delivery of the waiting request events. -/
def startDelivery (b : Batcher) (now : Instant) : Batcher :=
  match b.drainRequests now with
  | (some batch, b) => (b.start (.deliver batch)).2
  | (none, b) => b

/-- How long to wait so that batches keep their distance. -/
def sendDelay (b : Batcher) (now : Instant) : Checked Span :=
  match b.lastSend with
  | none => .ok Span.zero
  | some last => do return (← last.plus b.config.minSendInterval).since now

/-- Defers a send unless one is deferred already. -/
def deferSend (b : Batcher) (now : Instant) : Checked Batcher :=
  if b.pendingSend.isSome then .ok b
  else do
    let wait ← b.sendDelay now
    let r := b.startTask fun task => .deferredSend task wait
    return { r.2 with pendingSend := r.1 }

/-- Forgets the request events that no longer count for repetitions. -/
def forgetOld (b : Batcher) (now : Instant) : Batcher :=
  { b with recent := b.recent.filter fun _ t => decide (now.since t < b.config.dedupWindow) }

/-- Accepts a request event unless it is excluded, a success in the background or a repetition;
whether it was accepted. -/
def trackRequest (b : Batcher) (e : Event) (now : Instant) : Checked (Bool × Batcher) :=
  if b.excludes e.name || (b.inBackground && e.success) then .ok (false, b)
  else
    let e := b.attributed e
    let b := b.forgetOld now
    if b.recent.contains e.dedupKey then .ok (false, b)
    else
      let b := { b with
        recent := b.recent.insert e.dedupKey now, requests := b.requests ++ [e] }
      if max b.config.requestMaxQueue 1 ≤ b.requests.length then
        .ok (true, b.cancelPending.startDelivery now)
      else do return (true, ← b.deferSend now)

/-- Sends the waiting request events as one batch. -/
def flushRequests : Activity Batcher Unit := do
  modify cancelPending
  match ← Activity.step fun now b => b.drainRequests now with
  | none => return
  | some batch => deliver batch

/-- Hands the waiting request events over before an unload; whether they were accepted. -/
def flushOnUnload (b : Batcher) (now : Instant) : Bool × Batcher :=
  match b.cancelPending.drainRequests now with
  | (none, b) => (false, b)
  | (some batch, b) => b.sendLast batch now

/-! ## Everything -/

/-- Discards all that waits to be sent. -/
def clear (b : Batcher) : Batcher :=
  { b.cancelPending with
    generation := b.generation + 1
    auth := []
    requests := []
    recent := Table.empty
    lastSend := none }

/-- Starts sending the session events of each period. -/
def startPeriodic (b : Batcher) : Batcher :=
  if b.config.authFlushInterval.isPositive then
    let r := b.startTask .periodicFlush
    { r.2.stop b.flushTask with flushTask := r.1 }
  else b

def shutdown (b : Batcher) : Batcher :=
  { (b.stop b.flushTask).cancelPending with flushTask := none }

/-- Carries out work beside the callers, up to the point at which it ends or, for work that never
ends, starts over. -/
def perform : BatchJob → Activity Batcher (Option BatchJob)
  | .flushAuth => do
    flushAuth
    return none
  | .deliver batch => do
    deliver batch
    return none
  | .farewell request => do
    let _ ← Activity.await (.call request)
    return none
  | .deferredSend task wait => do
    Activity.sleep wait
    Activity.change fun now b => b.startDelivery now
    modify fun b => if b.pendingSend = some task then { b with pendingSend := none } else b
    return none
  | .periodicFlush task => do
    Activity.sleep (← get).config.authFlushInterval
    flushAuth
    return some (.periodicFlush task)

def describe (b : Batcher) : String :=
  "MetricsBatcher \x7b pending_auth: " ++ toString b.auth.length ++ ", pending_requests: " ++
    toString b.requests.length ++ " \x7d"

end Batcher

end ClientSession
