/-!
# Tallies and commands

A tally says how often an operation was attempted and what became of it. A command starts or stops
work beside the caller.
-/

namespace ClientSession

inductive Outcome where
  | attempt | success | failure | shortCircuit | retry
deriving DecidableEq

namespace Outcome

def label : Outcome → String
  | .attempt => "attempt"
  | .success => "success"
  | .failure => "failure"
  | .shortCircuit => "short_circuit"
  | .retry => "retry"

def all : List Outcome := [attempt, success, failure, shortCircuit, retry]

end Outcome

/-- The number of times of each outcome. -/
structure Tally where
  attempts : Nat
  successes : Nat
  failures : Nat
  shortCircuits : Nat
  retries : Nat
deriving DecidableEq, Inhabited

namespace Tally

def zero : Tally := ⟨0, 0, 0, 0, 0⟩

def count (t : Tally) : Outcome → Nat
  | .attempt => t.attempts
  | .success => t.successes
  | .failure => t.failures
  | .shortCircuit => t.shortCircuits
  | .retry => t.retries

def add (t : Tally) : Outcome → Tally
  | .attempt => { t with attempts := t.attempts + 1 }
  | .success => { t with successes := t.successes + 1 }
  | .failure => { t with failures := t.failures + 1 }
  | .shortCircuit => { t with shortCircuits := t.shortCircuits + 1 }
  | .retry => { t with retries := t.retries + 1 }

end Tally

/-- Starts work beside its caller, or stops the task of a name. -/
inductive Command (J T : Type) where
  | start (job : J)
  | stop (task : T)

def Command.map {J T J' T' : Type} (job : J → J') (task : T → T') : Command J T → Command J' T'
  | .start j => .start (job j)
  | .stop t => .stop (task t)

end ClientSession
