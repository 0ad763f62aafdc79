import ClientSession.Time.Calendar

/-!
# Stamps as RFC 3339 text

Writing drops the zeros at the end of the fraction, and needs a year from 0 to 9999 and an offset
of whole minutes below a day. Reading admits any character between date and time, any number of
decimal places, of which nine count, and a leap second at the end of a month.
-/

namespace ClientSession.Rfc3339

def writeOffset (offset : Int) : String :=
  if offset = 0 then "Z"
  else
    (if offset < 0 then "-" else "+") ++ Text.padded 2 (offset.natAbs / 3600) ++ ":" ++
      Text.padded 2 (offset.natAbs / 60 % 60)

/-- The text of a stamp, if it has one. -/
def write? (s : Stamp) : Option String :=
  let d := s.date
  let t := s.time
  if 0 ≤ d.year ∧ d.year ≤ 9999 ∧ s.offset.natAbs < 86400 ∧ s.offset % 60 = 0 then
    some (Text.padded 4 d.year.toNat ++ "-" ++ Text.padded 2 d.month ++ "-" ++
      Text.padded 2 d.day ++ "T" ++ Text.padded 2 t.hour ++ ":" ++ Text.padded 2 t.minute ++ ":" ++
      Text.padded 2 t.second ++ (if t.nano = 0 then "" else "." ++ ClockTime.fraction 0 t.nano) ++
      writeOffset s.offset)
  else none

/-- Exactly so many digits. -/
def takeDigits (count : Nat) (cs : List Char) : Option (Nat × List Char) :=
  let digits := cs.take count
  if digits.length = count then (Text.digits? digits).map (·, cs.drop count) else none

/-- One given character. -/
def takeChar (c : Char) : List Char → Option (List Char)
  | d :: rest => if d = c then some rest else none
  | [] => none

/-- A fraction of a second in nanoseconds, when a point starts one. -/
def takeFraction : List Char → Option (Nat × List Char)
  | '.' :: rest =>
    let digits := rest.takeWhile Text.isDigit
    if digits.isEmpty then none else
      let nine := (digits ++ List.replicate (9 - digits.length) '0').take 9
      (Text.digits? nine).map (·, rest.dropWhile Text.isDigit)
  | rest => some (0, rest)

def takeOffset (cs : List Char) : Option (Int × List Char) := do
  match cs with
  | [] => none
  | c :: rest =>
    if c = 'Z' ∨ c = 'z' then return (0, rest)
    if c ≠ '+' ∧ c ≠ '-' then none
    let (hours, rest) ← takeDigits 2 rest
    let rest ← takeChar ':' rest
    let (minutes, rest) ← takeDigits 2 rest
    if 23 < hours ∨ 59 < minutes then none
    let seconds : Int := (hours * 60 + minutes) * 60
    return (if c = '-' then -seconds else seconds, rest)

/-- The stamp with these fields, if they name one; the second 60 is a leap second. -/
def stamp? (d : Date) (hour minute second nano : Nat) (offset : Int) : Option Stamp :=
  let leap := second = 60
  let t : ClockTime := if leap then ⟨hour, minute, 59, 999999999⟩ else ⟨hour, minute, second, nano⟩
  if d.Valid ∧ t.Valid then
    let s := Stamp.ofFields d t offset
    if leap ∧ !s.isLeapSecond then none else some s
  else none

/-- The stamp that a text denotes. -/
def read? (text : String) : Option Stamp := do
  let (year, cs) ← takeDigits 4 text.toList
  let cs ← takeChar '-' cs
  let (month, cs) ← takeDigits 2 cs
  let cs ← takeChar '-' cs
  let (day, cs) ← takeDigits 2 cs
  let cs ← match cs with
    | c :: rest => if c.toNat < 0x80 then some rest else none
    | [] => none
  let (hour, cs) ← takeDigits 2 cs
  let cs ← takeChar ':' cs
  let (minute, cs) ← takeDigits 2 cs
  let cs ← takeChar ':' cs
  let (second, cs) ← takeDigits 2 cs
  let (nano, cs) ← takeFraction cs
  let (offset, cs) ← takeOffset cs
  if !cs.isEmpty then none
  stamp? ⟨year, month, day⟩ hour minute second nano offset

end ClientSession.Rfc3339
