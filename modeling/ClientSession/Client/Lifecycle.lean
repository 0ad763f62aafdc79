import ClientSession.Client.Supervision
import ClientSession.Client.Validation

/-!
# The life of a session

Signing in stores a token and starts the timers; signing out removes all that the session left.
What runs beside the callers is carried out here.
-/

namespace ClientSession

namespace Client

/-- Starts the work for a session that may have been stored earlier. -/
def start (c : Client) (now : Instant) : Client :=
  let c := c.mapBatcher (·.startPeriodic)
  let r := c.tabs.token c.own now
  let c := c.setTabs r.2
  if r.1.isSome then c.mapSupervisor (·.start) else c

def setUser (c : Client) (user : Option String) : Client :=
  c.mapBatcher fun b => { b with user := user }

/-- Signs in with a token; whether the token was accepted. -/
def login (c : Client) (token : BearerToken) (expiresAt : Option Instant) (now : Instant) :
    Bool × Client :=
  let r := c.tabs.install c.own token expiresAt
  let c := c.setTabs r.2
  if r.1 then
    let user := c.tabs.userId c.own now
    let c := (c.setTabs user.2).setUser user.1
    let c := c.trackAuth (Event.auth "login" true now)
    (true, (c.mapBatcher (·.startPeriodic)).mapSupervisor (·.start))
  else (false, c)

/-- Signs out. -/
def logout (c : Client) : Client :=
  let c := c.mapTabs (·.endSession c.own .logout)
  let c := c.mapSupervisor (·.shutdown)
  let c := { c with limiter := c.limiter.resetAll }
  let c := (c.mapBatcher (·.clear)).setUser none
  { c with gate := c.gate.reset, validator := c.validator.reset }

/-- Checks the token with the server; the timers run again and events name the user. -/
def validateSession : Activity Client ValidationResult := do
  match ← validate with
  | .error e => return .error e
  | .ok user =>
    modify fun c => if c.supervisor.isRunning then c else c.mapSupervisor (·.start)
    modify (·.setUser (some user))
    return .ok user

/-- Ends all work before an unload; whether the waiting request events were accepted. -/
def teardown (c : Client) (now : Instant) : Bool × Client :=
  let r := c.batcher.flushOnUnload now
  let c := c.setBatcher r.2
  (r.1, (c.mapBatcher (·.shutdown)).mapSupervisor (·.shutdown))

/-- Carries out work beside the callers, up to the point at which it ends or starts over. -/
def perform : Job → Activity Client (Option Job)
  | .telemetry job => do
    let next ← (Batcher.perform job).within (·.batcher) setBatcher
    return next.map .telemetry
  | .supervision job => do
    let next ← watch job
    return next.map .supervision

/-- What becomes of the client when work beside the callers faults: its task has ended. -/
def abandonJob (c : Client) : Job → Client
  | .telemetry (.deferredSend task _) =>
    if c.batcher.pendingSend = some task then
      { c with batcher := { c.batcher with pendingSend := none } } else c
  | .telemetry (.periodicFlush task) =>
    if c.batcher.flushTask = some task then
      { c with batcher := { c.batcher with flushTask := none } } else c
  | .supervision (.refreshTimer task) =>
    if c.supervisor.refreshTask = some task then
      { c with supervisor := { c.supervisor with refreshTask := none } } else c
  | .supervision (.expiryTimer task) =>
    if c.supervisor.expiryTask = some task then
      { c with supervisor := { c.supervisor with expiryTask := none } } else c
  | .telemetry _ => c

/-- The client's calls in words. -/
def describe (c : Client) : String :=
  "ApiClient \x7b retry: " ++ c.retry.describe ++ ", metrics: PipelineMetrics \x7b requests: " ++
    toString c.counts.requests ++ ", failures: " ++ toString c.counts.failures ++
    ", short_circuits: " ++ toString c.counts.shortCircuits ++ ", session_expirations: " ++
    toString c.counts.sessionExpirations ++ " \x7d, .. \x7d"

/-- The client and the base of its service in words. -/
def describeAt (c : Client) (base : String) : String :=
  "Gateway \x7b api_base: " ++ Text.quoted base ++ ", session: " ++ c.tabs.describe c.own ++
    ", validator: " ++ c.validator.describe ++ ", supervisor: " ++ c.supervisor.describe ++
    ", .. \x7d"

end Client

end ClientSession
