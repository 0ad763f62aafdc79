import ClientSession.Time.Span

/-!
# Instants

An instant is a signed number of nanoseconds since the start of 1970. The calendar covers the
years -9999 to 9999; moving an instant out of it faults.
-/

namespace ClientSession

/-- A point in time. -/
structure Instant where
  nanos : Int
deriving DecidableEq, Inhabited

namespace Instant

/-- The first second of the year -9999. -/
def firstSecond : Int := -377705116800

/-- The last second of the year 9999. -/
def lastSecond : Int := 253402300799

/-- The instant belongs to the calendar. -/
def InCalendar (t : Instant) : Prop :=
  firstSecond * Span.nanosPerSecond ≤ t.nanos ∧
    t.nanos < (lastSecond + 1) * Span.nanosPerSecond

instance (t : Instant) : Decidable t.InCalendar := inferInstanceAs (Decidable (_ ∧ _))

instance : LE Instant := ⟨fun a b => a.nanos ≤ b.nanos⟩
instance : LT Instant := ⟨fun a b => a.nanos < b.nanos⟩
instance (a b : Instant) : Decidable (a ≤ b) := inferInstanceAs (Decidable (a.nanos ≤ b.nanos))
instance (a b : Instant) : Decidable (a < b) := inferInstanceAs (Decidable (a.nanos < b.nanos))

def ofMicros (n : Int) : Instant := ⟨n * Span.nanosPerMicro⟩

/-- The instant that many seconds after the epoch, if the calendar has it. -/
def ofSeconds? (n : Int) : Option Instant :=
  if firstSecond ≤ n ∧ n ≤ lastSecond then some ⟨n * Span.nanosPerSecond⟩ else none

/-- Microseconds since the epoch, rounded down. -/
def floorMicros (t : Instant) : Int := t.nanos / Span.nanosPerMicro

/-- Seconds since the epoch, rounded down. -/
def floorSeconds (t : Instant) : Int := t.nanos / Span.nanosPerSecond

/-- Milliseconds since the epoch, rounded towards it. -/
def wholeMillis (t : Instant) : Int := t.nanos.tdiv Span.nanosPerMilli

/-- The span from `earlier` to `t`. -/
def since (t earlier : Instant) : Span := ⟨t.nanos - earlier.nanos⟩

/-- The instant moved by a span, if it stays in the calendar. -/
def plus? (t : Instant) (s : Span) : Option Instant :=
  let moved : Instant := ⟨t.nanos + s.nanos⟩
  if moved.InCalendar then some moved else none

/-- The instant moved by a span; leaving the calendar faults. -/
def plus (t : Instant) (s : Span) : Checked Instant :=
  match t.plus? s with
  | some moved => .ok moved
  | none => .error .outsideCalendar

end Instant

end ClientSession
