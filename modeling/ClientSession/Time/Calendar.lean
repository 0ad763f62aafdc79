import ClientSession.Time.Instant
import ClientSession.Text.Basic

/-!
# The calendar

Dates of the proleptic Gregorian calendar, the day numbers they stand for, and stamps: instants
together with the offset from universal time at which their clock fields are read.
-/

namespace ClientSession

/-- A day of the calendar; months and days count from one. -/
structure Date where
  year : Int
  month : Nat
  day : Nat
deriving DecidableEq, Inhabited

namespace Date

def isLeap (year : Int) : Bool := (year % 4 = 0 && year % 100 ≠ 0) || year % 400 = 0

/-- The lengths of the months of a year. -/
def monthLengths (year : Int) : List Nat :=
  [31, if isLeap year then 29 else 28, 31, 30, 31, 30, 31, 31, 30, 31, 30, 31]

def monthLength (year : Int) (month : Nat) : Nat := (monthLengths year).getD (month - 1) 0

/-- The days before the first day of a year, counted from the first day of the year one. -/
def daysBeforeYear (year : Int) : Int :=
  let y := year - 1
  365 * y + y / 4 - y / 100 + y / 400

/-- The first day of 1970, counted from the first day of the year one. -/
def epochDay : Int := 719162

/-- The date exists and its year has at most four digits. -/
def Valid (d : Date) : Prop :=
  -9999 ≤ d.year ∧ d.year ≤ 9999 ∧ 1 ≤ d.month ∧ d.month ≤ 12 ∧ 1 ≤ d.day ∧
    d.day ≤ monthLength d.year d.month

instance (d : Date) : Decidable d.Valid := inferInstanceAs (Decidable (_ ∧ _))

/-- Days of the year before the date. -/
def dayOfYear (d : Date) : Nat :=
  ((monthLengths d.year).take (d.month - 1)).foldl (· + ·) (d.day - 1)

/-- Days since the first day of 1970. -/
def toDay (d : Date) : Int := daysBeforeYear d.year + (d.dayOfYear : Int) - epochDay

/-- The year that a day, counted from the first day of the year one, belongs to. -/
def yearOfDay (n : Int) : Int :=
  let guess := 400 * n / 146097 + 1
  if n < daysBeforeYear guess then guess - 1
  else if n < daysBeforeYear (guess + 1) then guess
  else guess + 1

/-- The month and the day of the month of a day of the year, counted from zero. -/
def monthAndDay : List Nat → Nat → Nat → Nat × Nat
  | [], month, n => (month, n + 1)
  | length :: lengths, month, n =>
    if n < length then (month, n + 1) else monthAndDay lengths (month + 1) (n - length)

/-- The date of a day since the first day of 1970. -/
def ofDay (day : Int) : Date :=
  let n := day + epochDay
  let year := yearOfDay n
  let (month, day) := monthAndDay (monthLengths year) 1 (n - daysBeforeYear year).toNat
  ⟨year, month, day⟩

/-- Year, month and day with dashes; the year has four digits, or more with a sign. -/
def describe (d : Date) : String :=
  (if d.year < 0 then "-" else "") ++ Text.padded 4 d.year.natAbs ++ "-" ++
    Text.padded 2 d.month ++ "-" ++ Text.padded 2 d.day

end Date

/-- A time of day. -/
structure ClockTime where
  hour : Nat
  minute : Nat
  second : Nat
  nano : Nat
deriving DecidableEq, Inhabited

namespace ClockTime

def Valid (t : ClockTime) : Prop :=
  t.hour < 24 ∧ t.minute < 60 ∧ t.second < 60 ∧ t.nano < 1000000000

instance (t : ClockTime) : Decidable t.Valid := inferInstanceAs (Decidable (_ ∧ _))

def toNanos (t : ClockTime) : Nat :=
  ((t.hour * 60 + t.minute) * 60 + t.second) * 1000000000 + t.nano

def ofNanos (n : Nat) : ClockTime :=
  let seconds := n / 1000000000
  ⟨seconds / 3600, seconds / 60 % 60, seconds % 60, n % 1000000000⟩

/-- The digits of a fraction of a second without zeros at the end, at least `least` of them. -/
def fraction (least nano : Nat) : String :=
  let digits := (Text.padded 9 nano).toList
  let kept := (digits.reverse.dropWhile (· = '0')).reverse
  String.ofList (kept ++ List.replicate (least - kept.length) '0')

end ClockTime

/-- An instant read at an offset from universal time, in seconds. -/
structure Stamp where
  instant : Instant
  offset : Int
deriving DecidableEq, Inhabited

namespace Stamp

def nanosPerDay : Int := 86400000000000

/-- The instant read as universal time. -/
def universal (t : Instant) : Stamp := ⟨t, 0⟩

/-- The stamp whose clock shows a date and a time. -/
def ofFields (d : Date) (t : ClockTime) (offset : Int) : Stamp :=
  ⟨⟨d.toDay * nanosPerDay + t.toNanos - offset * Span.nanosPerSecond⟩, offset⟩

/-- Nanoseconds since the start of 1970 on the stamp's own clock. -/
def localNanos (s : Stamp) : Int := s.instant.nanos + s.offset * Span.nanosPerSecond

def date (s : Stamp) : Date := Date.ofDay (s.localNanos / nanosPerDay)

def time (s : Stamp) : ClockTime := ClockTime.ofNanos (s.localNanos % nanosPerDay).toNat

/-- The instant is the last nanosecond of a month of universal time, which stands for a leap
second. -/
def isLeapSecond (s : Stamp) : Bool :=
  let u := universal s.instant
  decide (u.instant.InCalendar) && u.time == ⟨23, 59, 59, 999999999⟩ &&
    u.date.day == Date.monthLength u.date.year u.date.month

end Stamp

/-- The instant in words, as universal time. -/
def Instant.describe (t : Instant) : String :=
  let s := Stamp.universal t
  s.date.describe ++ " " ++ toString s.time.hour ++ ":" ++ Text.padded 2 s.time.minute ++ ":" ++
    Text.padded 2 s.time.second ++ "." ++ ClockTime.fraction 1 s.time.nano ++ " +00:00:00"

end ClientSession
