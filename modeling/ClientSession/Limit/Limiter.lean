import ClientSession.Activity
import ClientSession.Limit.Bucket
import ClientSession.Table

/-!
# Limits on calls

Each pair of an endpoint and a user, or an endpoint and no user, draws on a bucket of its own,
which is made when it is first used and is full then. An endpoint without a limit is never held
back. A caller that finds its bucket empty may wait once for the next token, as long as the limit
allows.
-/

namespace ClientSession

structure Limiter where
  limits : Table String EndpointLimit
  buckets : Table String Bucket
deriving Inhabited

/-- Whether a call may be made now, and else when. -/
inductive Decision where
  | allow
  | delay (earliest : Instant) (wait : Span)
deriving DecidableEq

namespace Limiter

def empty : Limiter := ⟨Table.empty, Table.empty⟩

/-- The name of the bucket of an endpoint and a user. -/
def bucketName (endpoint : String) : Option String → String
  | some user => endpoint ++ ":" ++ user
  | none => endpoint

/-- The bucket's name is one of the endpoint's. -/
def belongsTo (bucket endpoint : String) : Bool :=
  bucket = endpoint || (endpoint.toList ++ [':']).isPrefixOf bucket.toList

/-- Sets the limit of an endpoint; its buckets start anew. -/
def configure (l : Limiter) (endpoint : String) (limit : EndpointLimit) : Limiter where
  limits := l.limits.insert endpoint limit
  buckets := l.buckets.filter fun name _ => !belongsTo name endpoint

def limit? (l : Limiter) (endpoint : String) : Option EndpointLimit := l.limits.find? endpoint

/-- The limits of the sign-in routes. -/
def defaultLimits : List (String × EndpointLimit) :=
  [("/auth/login", .new 5 60000 0), ("/auth/signup", .new 3 60000 0),
    ("/auth/validate", .new 10 60000 5000), ("/auth/refresh", .new 10 60000 5000)]

def withDefaults : Limiter := defaultLimits.foldl (fun l e => l.configure e.1 e.2) empty

/-- The bucket of a pair, made if it is missing, after the intervals that have ended. -/
def bucket (l : Limiter) (name : String) (limit : EndpointLimit) (now : Instant) : Bucket :=
  ((l.buckets.find? name).getD (.full limit now)).refill limit now

def store (l : Limiter) (name : String) (b : Bucket) : Limiter :=
  { l with buckets := l.buckets.insert name b }

/-- Whether a call may be made; takes no token. -/
def evaluate (l : Limiter) (endpoint : String) (user : Option String) (now : Instant) :
    Checked (Decision × Limiter) :=
  match l.limit? endpoint with
  | none => .ok (.allow, l)
  | some limit => do
    let name := bucketName endpoint user
    let b := l.bucket name limit now
    let l := l.store name b
    if 0 < b.tokens then return (.allow, l)
    let wait ← b.timeToNext limit now
    return (.delay (← now.plus wait) wait, l)

def mayCall (l : Limiter) (endpoint : String) (user : Option String) (now : Instant) :
    Checked (Bool × Limiter) := do
  let r ← l.evaluate endpoint user now
  return (decide (r.1 = .allow), r.2)

/-- How long a caller has to wait for the next token. -/
def remainingWait (l : Limiter) (endpoint : String) (user : Option String) (now : Instant) :
    Checked (Span × Limiter) := do
  let r ← l.evaluate endpoint user now
  return (match r.1 with
    | .allow => Span.zero
    | .delay _ wait => wait, r.2)

/-- The tokens of a pair; `none` without a limit. -/
def available (l : Limiter) (endpoint : String) (user : Option String) (now : Instant) :
    Option Nat × Limiter :=
  match l.limit? endpoint with
  | none => (none, l)
  | some limit =>
    let name := bucketName endpoint user
    let b := l.bucket name limit now
    (some b.tokens, l.store name b)

def reset (l : Limiter) (endpoint : String) (user : Option String) : Limiter :=
  { l with buckets := l.buckets.erase (bucketName endpoint user) }

def resetAll (l : Limiter) : Limiter := { l with buckets := Table.empty }

/-- Takes a token under a limit, or says how long to wait for the next. -/
def tryTake (l : Limiter) (endpoint : String) (user : Option String) (limit : EndpointLimit)
    (now : Instant) : Checked (Option Span × Limiter) := do
  let name := bucketName endpoint user
  let b := l.bucket name limit now
  if b.take.1 then return (none, l.store name b.take.2)
  return (some (← b.timeToNext limit now), l.store name b)

/-- Takes a token, waiting once for the next one if the limit allows; whether there was one. The
limit is the one that held at the start. -/
def acquire (endpoint : String) (user : Option String) : Activity Limiter Bool := do
  match (← get).limit? endpoint with
  | none => return true
  | some limit =>
    match ← Activity.attempt fun now l => l.tryTake endpoint user limit now with
    | none => return true
    | some wait =>
      Activity.sleep (min wait limit.maxWait)
      return (← Activity.attempt fun now l => l.tryTake endpoint user limit now).isNone

end Limiter

end ClientSession
