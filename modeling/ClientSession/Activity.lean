import ClientSession.Http.Message
import ClientSession.Telemetry.Event
import ClientSession.Time.Instant
import ClientSession.Token.Bearer

/-!
# Activities

An activity is work that may have to wait: for time to pass, for an answer from outside, or for
its turn. Between two waits it runs without interruption, at one reading of the clock. A run is an
activity that has been started: it has ended, or it waits and says what it goes on with once it is
resumed, and what is undone should it be dropped instead.
-/

namespace ClientSession

/-- Why a sink did not take a batch. -/
inductive SinkFailure where
  | transport (failure : TransportFailure)
  | rejected (status : Nat)
deriving DecidableEq

def SinkFailure.message : SinkFailure → String
  | .transport f => f.message
  | .rejected status =>
    "Metrics ingest rejected the batch with status " ++ toString status ++ "."

/-- A token that was issued, and its expiry if that is not left to its claims. -/
structure IssuedToken where
  token : BearerToken
  expiresAt : Option Instant
deriving DecidableEq

/-- Why no token was issued. -/
inductive IssueFailure where
  | loginRequired
  | unavailable (message : String)
deriving DecidableEq

def IssueFailure.message : IssueFailure → String
  | .loginRequired => "Interactive login is required."
  | .unavailable m => "Identity provider is unavailable: " ++ m ++ "."

/-- What an activity waits for. -/
inductive Wait where
  | sleep (span : Span)
  /-- The outcome of a call to the service. -/
  | call (request : Request)
  /-- The outcome of handing a batch to a sink. -/
  | deliver (batch : Batch)
  /-- A new token. -/
  | token
  /-- The turn of the holder of a ticket. -/
  | turn (ticket : Nat)

/-- What ends a wait. -/
def Wait.Answer : Wait → Type
  | .sleep _ => Unit
  | .call _ => TransportOutcome
  | .deliver _ => Except SinkFailure Unit
  | .token => Except IssueFailure IssuedToken
  | .turn _ => Unit

/-- A started activity over a state, with an answer at its end. -/
inductive Run (σ α : Type) where
  | done (s : σ) (a : α)
  | fault (s : σ) (f : Fault)
  /-- It was resumed too early and waits on. -/
  | stay (s : σ)
  | wait (s : σ) (w : Wait) (drop : σ → σ) (resume : w.Answer → Instant → σ → Run σ α)

namespace Run

variable {σ τ α β : Type}

/-- The state that the run has left. -/
def state : Run σ α → σ
  | .done s _ => s
  | .fault s _ => s
  | .stay s => s
  | .wait s _ _ _ => s

/-- Goes on with an activity once the run has ended. -/
def bind (f : α → Instant → σ → Run σ β) : Run σ α → Instant → Run σ β
  | .done s a, now => f a now s
  | .fault s e, _ => .fault s e
  | .stay s, _ => .stay s
  | .wait s w drop resume, _ =>
    .wait s w drop fun answer now s => (resume answer now s).bind f now

/-- The run, with more to undo if it is dropped while it waits. -/
def guarded (undo : σ → σ) : Run σ α → Run σ α
  | .done s a => .done s a
  | .fault s e => .fault s e
  | .stay s => .stay s
  | .wait s w drop resume =>
    .wait s w (fun s => undo (drop s)) fun answer now s => (resume answer now s).guarded undo

/-- The run as a run over a larger state, of which `get` is a part and `put` replaces it. -/
def within (get : τ → σ) (put : τ → σ → τ) : Run σ α → τ → Run τ α
  | .done s a, t => .done (put t s) a
  | .fault s e, t => .fault (put t s) e
  | .stay s, t => .stay (put t s)
  | .wait s w drop resume, t =>
    .wait (put t s) w (fun t => put t (drop (get t))) fun answer now t =>
      (resume answer now (get t)).within get put t

end Run

/-- Work over a state that starts at a reading of the clock. -/
def Activity (σ α : Type) := Instant → σ → Run σ α

namespace Activity

variable {σ τ α β : Type}

instance : Monad (Activity σ) where
  pure a := fun _ s => .done s a
  bind x f := fun now s => (x now s).bind f now

instance : MonadStateOf σ (Activity σ) where
  get := fun _ s => .done s s
  set s := fun _ _ => .done s ()
  modifyGet f := fun _ s => .done (f s).2 (f s).1

/-- The reading of the clock. -/
def now : Activity σ Instant := fun now s => .done s now

/-- A step that may fault and then leaves the state as it was. -/
def attempt (f : Instant → σ → Checked (α × σ)) : Activity σ α := fun now s =>
  match f now s with
  | .ok r => .done r.2 r.1
  | .error e => .fault s e

/-- A step at the reading of the clock. -/
def step (f : Instant → σ → α × σ) : Activity σ α := fun now s => .done (f now s).2 (f now s).1

/-- A change of the state at the reading of the clock. -/
def change (f : Instant → σ → σ) : Activity σ Unit := fun now s => .done (f now s) ()

def await (w : Wait) : Activity σ w.Answer := fun _ s =>
  .wait s w id fun answer _ s => .done s answer

/-- Lets time pass; a span that is not positive needs no wait. -/
def sleep (span : Span) : Activity σ Unit :=
  if span.isPositive then await (.sleep span) else pure ()

/-- The activity, undoing something if it is dropped while it waits. -/
def guarded (undo : σ → σ) (x : Activity σ α) : Activity σ α := fun now s =>
  (x now s).guarded undo

/-- The activity on a part of a larger state. -/
def within (get : τ → σ) (put : τ → σ → τ) (x : Activity σ α) : Activity τ α := fun now t =>
  (x now (get t)).within get put t

end Activity

end ClientSession
