import ClientSession.Bounds

/-!
# Spans of time

A span is a signed number of nanoseconds. Its whole seconds fit a signed 64-bit integer, so a
sum of two spans may fault. Constructors that take an unsigned count clamp it to that range.
-/

namespace ClientSession

/-- A signed length of time. -/
structure Span where
  nanos : Int
deriving DecidableEq, Inhabited

namespace Span

/-- The largest signed 64-bit integer. -/
def maxCount : Nat := maxSigned64

def nanosPerMicro : Int := 1000
def nanosPerMilli : Int := 1000000
def nanosPerSecond : Int := 1000000000

def zero : Span := ⟨0⟩
def ofMicros (n : Int) : Span := ⟨n * nanosPerMicro⟩
def ofMillis (n : Int) : Span := ⟨n * nanosPerMilli⟩
def ofSeconds (n : Int) : Span := ⟨n * nanosPerSecond⟩

/-- A count of seconds, clamped to the largest span. -/
def clampedSeconds (n : Nat) : Span := ofSeconds (min n maxCount)

/-- A count of milliseconds, clamped to a signed 64-bit count. -/
def clampedMillis (n : Nat) : Span := ofMillis (min n maxCount)

instance : LE Span := ⟨fun a b => a.nanos ≤ b.nanos⟩
instance : LT Span := ⟨fun a b => a.nanos < b.nanos⟩
instance (a b : Span) : Decidable (a ≤ b) := inferInstanceAs (Decidable (a.nanos ≤ b.nanos))
instance (a b : Span) : Decidable (a < b) := inferInstanceAs (Decidable (a.nanos < b.nanos))
instance : Min Span := ⟨fun a b => if a ≤ b then a else b⟩

/-- Whole seconds, the fraction dropped. -/
def wholeSeconds (s : Span) : Int := s.nanos.tdiv nanosPerSecond

/-- Whole milliseconds, the fraction dropped. -/
def wholeMillis (s : Span) : Int := s.nanos.tdiv nanosPerMilli

/-- Whole microseconds, the fraction dropped. -/
def wholeMicros (s : Span) : Int := s.nanos.tdiv nanosPerMicro

def isPositive (s : Span) : Bool := decide (0 < s.nanos)

/-- The span is in range: its whole seconds fit 64 signed bits. -/
def InRange (s : Span) : Prop :=
  -((maxSigned64 : Int) + 2) * nanosPerSecond < s.nanos ∧
    s.nanos < ((maxSigned64 : Int) + 1) * nanosPerSecond

instance (s : Span) : Decidable s.InRange := inferInstanceAs (Decidable (_ ∧ _))

/-- The sum of two spans. -/
def plus (a b : Span) : Checked Span :=
  let sum : Span := ⟨a.nanos + b.nanos⟩
  if sum.InRange then .ok sum else .error .overflow

/-- Seconds that cover the span: the milliseconds that are left over count as a second. -/
def coveringSeconds (s : Span) : Int := (s.wholeMillis + 999).tdiv 1000

/-- The seconds and the nanoseconds of the span, both with its sign. -/
def describe (s : Span) : String :=
  "SignedDuration \x7b seconds: " ++ toString s.wholeSeconds ++ ", nanoseconds: " ++
    toString (s.nanos.tmod nanosPerSecond) ++ " \x7d"

end Span

end ClientSession
