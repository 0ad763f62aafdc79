import ClientSession.Client.Calls

/-!
# Checking the token with the server

A pass asks the server who the user is. After a failure it drops the token, asks for a new one and
tries again, as the retry policy allows. At the end the user is authenticated, or the session ends
and the user is told. One pass runs at a time; one that is dropped leaves the validator idle.
-/

namespace ClientSession

/-- Who the answer to a token check says the user is: the first of three fields, at the top or in
the field `user`, that is a number or a text that is not empty. -/
def Response.userId? (r : Response) : Option String := do
  let body ← r.json?
  let of (v : Json) : Option String := ["id", "userId", "sub"].findSome? fun name =>
    match v.field? name with
    | some (.string s) => if s.isEmpty then none else some s
    | some (.number n) => some (Json.numberText n)
    | _ => none
  (of body).orElse fun _ => (body.field? "user").bind of

/-- Why a pass did not authenticate the user. -/
inductive ValidationFailure where
  | inProgress
  /-- Every attempt failed; the last one with this error. -/
  | exhausted (attempts : Nat) (last : ApiError)

def ValidationFailure.message : ValidationFailure → String
  | .inProgress => "A validation pass is already running."
  | .exhausted attempts _ =>
    "Session validation failed after " ++ toString attempts ++ " attempts."

/-- The user, or why there is none. -/
abbrev ValidationResult := Except ValidationFailure String

namespace Client

/-- The answer to a check names no user. -/
def noUserId (r : Response) : ApiError :=
  plainError .unknown (.code r.status) "Validation response carries no user id." (.response r)

/-- Asks the server once who the user is. -/
def checkToken : Activity Client (Except ApiError String) := do
  let user ← onTab Tabs.userId
  if ← acquire Route.validate user then
    match ← send (.new .get Route.validate) with
    | .error e => return .error e
    | .ok response =>
      match response.userId? with
      | some u => return .ok u
      | none => return .error (noUserId response)
  else
    let wait ← remainingWait Route.validate user
    return .error (classify (.refused (.rateLimited wait)) (← Activity.now))

/-- Drops the token and asks for a new one. -/
def renewCredential : Activity Client Unit := do
  modify fun c => c.mapTabs (·.clearSession c.own)
  match (← get).validator.supply with
  | .nobody => return
  | supply =>
    match ← fetchToken supply with
    | .error _ => return
    | .ok issued =>
      modify fun c => c.mapTabs fun w => (w.install c.own issued.token issued.expiresAt).2

def countValidation (o : Outcome) : Activity Client Unit := modify (·.mapValidator (·.count o))

/-- Attempts the check, with so many attempts left after this one. -/
def attemptChecks (policy : RetryPolicy) : (left done : Nat) → Activity Client ValidationResult
  | left, done => do
    if 0 < done then renewCredential
    match ← checkToken with
    | .ok user =>
      Activity.change fun now c =>
        c.trackAuth ((Event.auth "token_validated" true now).withUser user)
      return .ok user
    | .error e =>
      match left with
      | 0 =>
        Activity.change fun now c =>
          c.trackAuth ((Event.auth "token_validation_failed" false now).withError e.message)
        return .error (.exhausted (done + 1) e)
      | left + 1 =>
        countValidation .retry
        backOff policy done
        attemptChecks policy left (done + 1)

/-- What the user is told when the session could not be verified. -/
def unverified : Notice :=
  ⟨.auth, "Your session could not be verified. Please sign in again."⟩

/-- Abandons a pass. -/
def abandonPass (c : Client) : Client := c.mapValidator (·.settle .idle)

/-- Runs a pass that was begun. -/
def runPass : Activity Client ValidationResult := do
  countValidation .attempt
  let policy := (← get).validator.retry
  match ← attemptChecks policy policy.maxRetries 0 with
  | .ok user =>
    countValidation .success
    modify (·.mapValidator (·.settle (.authenticated user)))
    return .ok user
  | .error e =>
    countValidation .failure
    modify fun c => c.mapTabs (·.endSession c.own .validationExhausted)
    modify (·.mapValidator (·.settle .expired))
    Activity.change fun now c => if c.announces then c.announce unverified now else c
    return .error e

/-- Runs a pass that was begun; dropping it abandons the pass. -/
def pass : Activity Client ValidationResult := runPass.guarded abandonPass

/-- Begins a pass unless one is running; whether it was begun. -/
def tryBegin (c : Client) : Bool × Client :=
  (c.validator.tryBegin.1, { c with validator := c.validator.tryBegin.2 })

/-- Checks the token with the server, unless a check is running. -/
def validate : Activity Client ValidationResult := do
  if ← Activity.step fun _ c => c.tryBegin then pass else return .error .inProgress

end Client

namespace Validator

def stateText (v : Validator) : String :=
  match v.state with
  | .idle => "Idle"
  | .validating => "Validating"
  | .authenticated user => "Authenticated \x7b user_id: " ++ Text.quoted user ++ " \x7d"
  | .expired => "Expired"

def describe (v : Validator) : String :=
  "TokenValidator \x7b state: " ++ v.stateText ++ ", retry: " ++ v.retry.describe ++
    ", has_token_source: " ++ toString (decide (v.supply ≠ .nobody)) ++ " \x7d"

end Validator

end ClientSession
