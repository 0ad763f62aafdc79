import ClientSession.Client.State

/-!
# Calls

A call is marked, secured and counted. A call of the sign-in family draws on the limit of its
route; a call that needs a session carries its token and is refused without one. What becomes of a
call is reported as events, a refused token ends the session, and a failure is made known to the
user. A call may be attempted again when its failure is one that may pass.
-/

namespace ClientSession

/-- What a caller gets. -/
abbrev CallResult := Except ApiError Response

namespace Client

/-- A call that takes longer is slow. -/
def slowThreshold : Span := Span.ofSeconds 1

def count (c : Client) (o : Outcome) : Client := { c with tally := c.tally.add o }

/-- Counts a request, marks its start and gives it the headers of every request. -/
def prepare (c : Client) (r : Request) (now : Instant) : Request × Client :=
  ((r.stampStart now).secure c.profile c.csrf now c.serial,
    { c with
      counts := { c.counts with requests := c.counts.requests + 1 }
      serial := c.serial + 1 })

/-- The report of a failed call. -/
def failureEvent (r : Request) (path : String) (status : Option Nat) (elapsed : Span)
    (now : Instant) (e : ApiError) : Event :=
  ((Event.request r.method.name path status elapsed now).withError e.message).withTag "kind"
    e.kind.label

/-- Refuses a call before it is made. -/
def reject (r : Request) (path : String) (failure : LocalFailure) : Activity Client ApiError := do
  let now ← Activity.now
  let e := classify (.refused failure) now
  modify fun c => ({ c with
    counts := { c.counts with shortCircuits := c.counts.shortCircuits + 1 } }).count .shortCircuit
  trackRequest ((failureEvent r path none Span.zero now e).withTag "stage" "request")
  return e

/-- Reports a failed call, unless its kind or its route is reported otherwise. -/
def reportFailure (r : Request) (path : String) (status : Option Nat) (elapsed : Span)
    (e : ApiError) : Activity Client Unit := do
  let now ← Activity.now
  if e.kind = .auth || e.kind = .rateLimit || Route.isReportingExcluded path then return
  trackRequest (failureEvent r path status elapsed now e)

/-- The report of a call that the user may not make. -/
def denialEvent (path : String) (response : Response) (now : Instant) : Event :=
  let e := (Event.auth "permission_denied" false now).withTag "resource" path
  match response.header? SecurityHeaders.requiredPermission with
  | some permission => e.withTag "required_permission" permission
  | none => e

/-- What follows from the status of a failed call. -/
def heedStatus (r : Request) (path : String) (response : Response) (elapsed : Span) :
    Activity Client Unit := do
  let now ← Activity.now
  if response.status = 401 then
    if Route.requiresAuth path then
      modify fun c => c.mapTabs fun w => w.endSession c.own .unauthorized
      modify fun c => { c with
        counts := { c.counts with sessionExpirations := c.counts.sessionExpirations + 1 } }
      modify fun c =>
        c.trackAuth ((Event.auth "session_expired" false now).withTag "path" path)
  else if response.status = 403 then
    modify fun c => c.trackAuth (denialEvent path response now)
  else if response.status = 429 then
    trackRequest (((Event.request r.method.name path (some 429) elapsed now).withError
      "rate_limited").withTag "kind" FailureKind.rateLimit.label)

/-- Makes the call and heeds its outcome. -/
def exchange (r : Request) (path : String) : Activity Client CallResult := do
  let outcome ← Activity.await (.call r)
  let now ← Activity.now
  let elapsed ← Activity.attempt fun now c => do
    return ((← r.elapsed now).getD Span.zero, c)
  let slow : Bool := decide (slowThreshold < elapsed)
  match outcome with
  | .error failure =>
    let e := classify (.transport failure) now
    reportFailure r path none elapsed e
    return .error e
  | .ok response =>
    modify fun c => { c with latencies := c.latencies ++ [⟨elapsed, slow⟩] }
    if response.isSuccess then
      if slow then
        trackRequest ((Event.request r.method.name path (some response.status) elapsed
          now).withTag "slow" "true")
      return .ok response
    else
      heedStatus r path response elapsed
      let e := classify (.response response) now
      reportFailure r path (some response.status) elapsed e
      return .error e

/-- Makes the call with the token of the session, if it needs one. -/
def authorize (r : Request) (path : String) (started : Instant) : Activity Client CallResult := do
  if Route.requiresAuth path then
    match ← onTab Tabs.token with
    | none => return .error (← reject r path .missingToken)
    | some token =>
      modify fun c =>
        c.trackAuth ((Event.auth "token_used" true started).withTag "path" path)
      exchange (r.setHeader "authorization" token.authorization) path
  else exchange r path

def dispatch (request : Request) : Activity Client CallResult := do
  let started ← Activity.now
  let path := Route.normalize request.path
  let r ← Activity.step fun now c => c.prepare request now
  if Route.isAuthFamily path then
    if ← acquire path none then authorize r path started
    else
      let wait ← remainingWait path none
      return .error (← reject r path (.rateLimited wait))
  else authorize r path started

/-- Makes a call. -/
def send (request : Request) : Activity Client CallResult := do
  modify (·.count .attempt)
  match ← dispatch request with
  | .ok response =>
    modify (·.count .success)
    return .ok response
  | .error e =>
    modify (·.count .failure)
    Activity.change fun now c =>
      let c := { c with counts := { c.counts with failures := c.counts.failures + 1 } }
      if c.announces then c.announce ⟨e.kind, e.userMessage⟩ now else c
    return .error e

/-- Makes a call, with so many attempts left after the first. -/
def sendRetrying (policy : RetryPolicy) (request : Request) :
    (left done : Nat) → Activity Client CallResult
  | 0, _ => send request
  | left + 1, done => do
    match ← send request with
    | .ok response => return .ok response
    | .error e =>
      if e.kind.isRetryable then
        modify (·.count .retry)
        backOff policy done
        sendRetrying policy request left (done + 1)
      else return .error e

/-- Makes a call, and again as the retry policy allows. -/
def sendWithRetry (request : Request) : Activity Client CallResult := do
  let policy := (← get).retry
  sendRetrying policy request policy.maxRetries 0

end Client

end ClientSession
