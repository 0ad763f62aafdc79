import ClientSession.Failure.Kind
import ClientSession.Http.RetryAfter

/-!
# Failed calls

A raw failure is what was observed: a refusal before the call, a response whose status is not a
success, or no response at all. `classify` gives every raw failure one kind, a message and what
else a caller may want to know, and keeps the raw failure.
-/

namespace ClientSession

/-- A refusal before any call was made. -/
inductive LocalFailure where
  /-- The limit of the endpoint is used up; the next call may be made after `wait`. -/
  | rateLimited (wait : Span)
  | missingToken
  | unauthorized (message : String)
deriving DecidableEq

/-- A failure as it was observed. -/
inductive RawFailure where
  | refused (failure : LocalFailure)
  | response (response : Response)
  | transport (failure : TransportFailure)
deriving DecidableEq

/-- The status of a failed call: the server's, or a word where there was no response. -/
inductive FailureStatus where
  | code (status : Nat)
  | rateLimited
  | noToken
  | unauthorized
  | timeout
  | networkError
deriving DecidableEq

namespace FailureStatus

def code? : FailureStatus → Option Nat
  | .code n => some n
  | _ => none

def text : FailureStatus → String
  | .code n => toString n
  | .rateLimited => "RATE_LIMITED"
  | .noToken => "NO_TOKEN"
  | .unauthorized => "UNAUTHORIZED"
  | .timeout => "TIMEOUT"
  | .networkError => "NETWORK_ERROR"

end FailureStatus

/-- A failed call as its caller sees it. -/
structure ApiError where
  kind : FailureKind
  status : FailureStatus
  message : String
  details : Option Json
  retryAfter : Option Span
  raw : RawFailure

/-- The wait after a 429 response that names none. -/
def defaultRetryAfter : Span := Span.ofSeconds 60

def rateLimitMessage (seconds : Int) : String :=
  "Too many requests. Please wait " ++ toString seconds ++ " seconds before trying again."

/-- What the server says about the failure: the first of the fields `message` and `error` of a JSON
body that is a text, unless that text is blank. -/
def Response.serverMessage? (r : Response) : Option String := do
  let body ← r.json?
  let text ← ["message", "error"].findSome? fun name => (body.field? name).bind Json.text?
  if Text.isAllBlank text then none else some text

/-- What the server sent along: a JSON body, or else a body that is not blank as a text. -/
def Response.failureDetails? (r : Response) : Option Json :=
  match r.json? with
  | some v => some v
  | none => if Text.isAllBlank r.body then none else some (.string r.body)

/-- The kind of a response that is neither 429 nor 401, and the message when the server gives
none. -/
def kindOfStatus (status : Nat) : FailureKind × String :=
  if 500 ≤ status then (.server, "Server error. Please try again later.")
  else if status = 400 then (.validation, "The request was rejected as invalid.")
  else if status = 403 then (.permission, "You do not have permission to do that.")
  else (.unknown, "Unexpected response from the server.")

/-- Too many calls: the caller is told the whole seconds that cover the wait. -/
def rateLimitError (status : FailureStatus) (wait : Span) (raw : RawFailure) : ApiError where
  kind := .rateLimit
  status := status
  message := rateLimitMessage wait.coveringSeconds
  details := none
  retryAfter := some wait
  raw := raw

/-- A failure without a response. -/
def plainError (kind : FailureKind) (status : FailureStatus) (message : String)
    (raw : RawFailure) : ApiError where
  kind := kind
  status := status
  message := message
  details := none
  retryAfter := none
  raw := raw

/-- A failure that a response reports. -/
def responseError (kind : FailureKind) (fallback : String) (r : Response) : ApiError where
  kind := kind
  status := .code r.status
  message := r.serverMessage?.getD fallback
  details := r.failureDetails?
  retryAfter := none
  raw := .response r

/-- The failure of a call, as observed at an instant. -/
def classify (raw : RawFailure) (now : Instant) : ApiError :=
  match raw with
  | .refused (.rateLimited wait) => rateLimitError .rateLimited wait raw
  | .refused .missingToken =>
    plainError .auth .noToken "No authentication token available." raw
  | .refused (.unauthorized message) => plainError .auth .unauthorized message raw
  | .response r =>
    if r.status = 429 then
      rateLimitError (.code 429) ((r.retryAfter? now).getD defaultRetryAfter) raw
    else if r.status = 401 then
      responseError .auth "Your session has expired. Please sign in again." r
    else
      let (kind, fallback) := kindOfStatus r.status
      responseError kind fallback r
  | .transport f =>
    if f.aborted then plainError .timeout .timeout "The request timed out." raw
    else plainError .network .networkError "Network error. Check your connection." raw

/-- What the user is told about a failure of a kind, given its message and its wait. -/
def userMessageFor (kind : FailureKind) (message : String) (wait : Option Span) : String :=
  match kind with
  | .auth => "Your session has expired. Please sign in again."
  | .rateLimit => rateLimitMessage ((wait.map (·.coveringSeconds)).getD 60)
  | .network => "Network error. Check your connection and try again."
  | .timeout => "The request timed out. Please try again."
  | .permission | .server | .validation | .unknown =>
    let text := Text.trim message
    if text.isEmpty then "Something went wrong. Please try again." else text

/-- What the user is told about a failure. -/
def ApiError.userMessage (e : ApiError) : String := userMessageFor e.kind e.message e.retryAfter

end ClientSession
