/-!
# Bounds and faults

The largest integers of the widths in which numbers are read and kept. A computation whose result
has no place within its bounds has no answer: it faults, as it does where an instant leaves the
calendar. That differs from an error, which is an answer that a caller is expected to handle.
-/

namespace ClientSession

def maxUnsigned16 : Nat := 65535
def maxUnsigned32 : Nat := 4294967295
def maxUnsigned64 : Nat := 18446744073709551615
def maxSigned64 : Nat := 9223372036854775807
def maxSigned128 : Nat := 170141183460469231731687303715884105727

/-- Why a computation has no answer. -/
inductive Fault where
  /-- A quantity needs more bits than its representation has. -/
  | overflow
  /-- An instant lies outside the years -9999 to 9999. -/
  | outsideCalendar
deriving DecidableEq, Inhabited

/-- A result, unless the computation faults. -/
abbrev Checked (α : Type) := Except Fault α

end ClientSession
