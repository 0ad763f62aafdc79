import ClientSession.Limit.Limiter
import ClientSession.Notice
import ClientSession.Retry
import ClientSession.Session.Tabs
import ClientSession.Telemetry.Batcher
import ClientSession.Turn

/-!
# The state of a client

A client is one tab together with all that works for its session: the limits on its calls, the
batches of its events, the notices to its user, the check of its token by the server, and the
timers that renew the token and end the session. Work that a part starts or stops beside its
callers is collected in one agenda, in order.
-/

namespace ClientSession

/-- Who issues new tokens. -/
inductive TokenSupply where
  | nobody
  /-- The user has to sign in again. -/
  | interactive
  | provider
deriving DecidableEq

inductive ValidationState where
  | idle
  | validating
  | authenticated (user : String)
  | expired
deriving DecidableEq

/-- The check of the token by the server. -/
structure Validator where
  retry : RetryPolicy
  supply : TokenSupply
  state : ValidationState
  tally : Tally

/-- Work of a supervisor beside its callers. -/
inductive WatchJob where
  | refreshTimer (task : Nat)
  | expiryTimer (task : Nat)

/-- The timers of a session. -/
structure Supervisor where
  config : SessionConfig
  supply : TokenSupply
  hasWorkers : Bool
  /-- One refresh takes place at a time. -/
  turn : Turn
  refreshTask : Option Nat
  expiryTask : Option Nat
  nextTask : Nat
  tally : Tally
  commands : List (Command WatchJob Nat)

/-- How many calls there were, how many failed, how many were refused before they were made, and how
many ended the session. -/
structure CallCounts where
  requests : Nat
  failures : Nat
  shortCircuits : Nat
  sessionExpirations : Nat
deriving DecidableEq

/-- How long a call took, and whether that counts as slow. -/
structure Latency where
  elapsed : Span
  slow : Bool
deriving DecidableEq

/-- Work beside the callers of a client. -/
inductive Job where
  | telemetry (job : BatchJob)
  | supervision (job : WatchJob)

inductive TaskName where
  | telemetry (task : Nat)
  | supervision (task : Nat)
deriving DecidableEq

structure Client where
  /-- The number of the client's own tab. -/
  own : Nat
  tabs : Tabs
  limiter : Limiter
  batcher : Batcher
  gate : NoticeGate
  validator : Validator
  supervisor : Supervisor
  profile : DeviceProfile
  csrf : Option String
  retry : RetryPolicy
  /-- Failed calls are made known to the user. -/
  announces : Bool
  counts : CallCounts
  tally : Tally
  latencies : List Latency
  /-- The number of requests so far, which tells them apart. -/
  serial : Nat
  /-- The random numbers that will be drawn; after the last one zeros are drawn. -/
  draws : List Nat
  agenda : List (Command Job TaskName)

namespace Supervisor

def new (config : SessionConfig) (supply : TokenSupply) (hasWorkers : Bool) : Supervisor :=
  ⟨config, supply, hasWorkers, .free, none, none, 0, .zero, []⟩

def stop (s : Supervisor) (task : Option Nat) : Supervisor :=
  match task with
  | some n => { s with commands := s.commands ++ [.stop n] }
  | none => s

/-- Starts work under a number of its own; the number, if it could be started. -/
def startTask (s : Supervisor) (job : Nat → WatchJob) : Option Nat × Supervisor :=
  if s.hasWorkers then
    (some s.nextTask, { s with
      commands := s.commands ++ [.start (job s.nextTask)], nextTask := s.nextTask + 1 })
  else (none, s)

/-- Starts the refresh timer in place of the one that runs. -/
def armRefresh (s : Supervisor) : Supervisor :=
  if s.config.refreshCheckInterval.isPositive then
    let r := s.startTask .refreshTimer
    { r.2.stop s.refreshTask with refreshTask := r.1 }
  else s

/-- Starts the expiry timer in place of the one that runs. -/
def armTimeout (s : Supervisor) : Supervisor :=
  let r := s.startTask .expiryTimer
  { r.2.stop s.expiryTask with expiryTask := r.1 }

def start (s : Supervisor) : Supervisor := s.armRefresh.armTimeout

def shutdown (s : Supervisor) : Supervisor :=
  { (s.stop s.refreshTask).stop s.expiryTask with refreshTask := none, expiryTask := none }

def isRunning (s : Supervisor) : Bool := s.refreshTask.isSome

def hasTimeout (s : Supervisor) : Bool := s.expiryTask.isSome

def count (s : Supervisor) (o : Outcome) : Supervisor := { s with tally := s.tally.add o }

end Supervisor

namespace Validator

def new (retry : RetryPolicy) (supply : TokenSupply) : Validator := ⟨retry, supply, .idle, .zero⟩

def settle (v : Validator) (state : ValidationState) : Validator := { v with state := state }

/-- Begins a pass unless one is running; whether it was begun. -/
def tryBegin (v : Validator) : Bool × Validator :=
  if v.state = .validating then (false, v) else (true, v.settle .validating)

/-- Forgets the last pass unless one is running. -/
def reset (v : Validator) : Validator :=
  if v.state = .validating then v else v.settle .idle

def count (v : Validator) (o : Outcome) : Validator := { v with tally := v.tally.add o }

end Validator

namespace Client

/-! ## Parts -/

/-- The client with another batcher, whose commands go to the agenda. -/
def setBatcher (c : Client) (b : Batcher) : Client :=
  { c with
    batcher := { b with commands := [] }
    agenda := c.agenda ++ b.commands.map (·.map .telemetry .telemetry) }

/-- The client with another supervisor, whose commands go to the agenda. -/
def setSupervisor (c : Client) (s : Supervisor) : Client :=
  { c with
    supervisor := { s with commands := [] }
    agenda := c.agenda ++ s.commands.map (·.map .supervision .supervision) }

/-- Stops the timers of the session and no longer names its user. -/
def stopWork (c : Client) : Client :=
  let c := c.setSupervisor c.supervisor.shutdown
  c.setBatcher { c.batcher with user := none }

/-- The client after its tabs have changed: if one of its own reactions stops work, work stops. -/
def setTabs (c : Client) (w : Tabs) : Client :=
  let latest := w.history.drop c.tabs.history.length
  let c := { c with tabs := w }
  if latest.any fun o => match o with
      | .reacted i .stopWork _ => i = c.own
      | _ => false
  then c.stopWork else c

def mapBatcher (c : Client) (f : Batcher → Batcher) : Client := c.setBatcher (f c.batcher)

def mapSupervisor (c : Client) (f : Supervisor → Supervisor) : Client :=
  c.setSupervisor (f c.supervisor)

def mapTabs (c : Client) (f : Tabs → Tabs) : Client := c.setTabs (f c.tabs)

def mapValidator (c : Client) (f : Validator → Validator) : Client :=
  { c with validator := f c.validator }

/-- A step of the client's own tab. -/
def onTab {α : Type} (f : Tabs → Nat → Instant → α × Tabs) : Activity Client α :=
  Activity.step fun now c => ((f c.tabs c.own now).1, c.setTabs (f c.tabs c.own now).2)

/-- Takes a token for a call, waiting for it if the limit allows. -/
def acquire (endpoint : String) (user : Option String) : Activity Client Bool :=
  (Limiter.acquire endpoint user).within (·.limiter) fun c l => { c with limiter := l }

/-- How long the next call has to wait. -/
def remainingWait (endpoint : String) (user : Option String) : Activity Client Span :=
  Activity.attempt fun now c => do
    let r ← c.limiter.remainingWait endpoint user now
    return (r.1, { c with limiter := r.2 })

def trackAuth (c : Client) (e : Event) : Client := c.mapBatcher (·.trackAuth e)

def trackRequest (e : Event) : Activity Client Unit :=
  Activity.attempt fun now c => do
    let r ← c.batcher.trackRequest e now
    return ((), c.setBatcher r.2)

/-- Shows a notice to the user. -/
def announce (c : Client) (n : Notice) (now : Instant) : Client :=
  { c with gate := (c.gate.notify n now).2 }

/-- Draws a random number up to a bound. -/
def draw (bound : Nat) : Activity Client Nat :=
  Activity.step fun _ c =>
    if bound = 0 then (0, c)
    else (c.draws.headD 0 % (bound + 1), { c with draws := c.draws.tail })

/-- Waits before another attempt. -/
def backOff (policy : RetryPolicy) (done : Nat) : Activity Client Unit := do
  let jitter ← draw policy.jitterMs
  Activity.sleep (← Activity.attempt fun _ c => do return (← policy.delay done jitter, c))

/-- Asks for a new token. -/
def fetchToken : TokenSupply → Activity Client (Except IssueFailure IssuedToken)
  | .provider => Activity.await .token
  | _ => return .error .loginRequired

end Client

end ClientSession
