import ClientSession.Bounds
import ClientSession.Json.Issue

/-!
# Reading the atoms of JSON

Blanks, words, strings and numbers. A reader takes the unread characters and gives a value and
the characters it leaves unread, or an issue.
-/

namespace ClientSession.Json

/-- The outcome of reading: a value and the unread characters, or an issue. -/
abbrev Reading (α : Type) := Except Issue (α × List Char)

def isSpace (c : Char) : Bool := c = ' ' || c = '\n' || c = '\t' || c = '\r'

def skipSpace (cs : List Char) : List Char := cs.dropWhile isSpace

def malformedHere (m : Malformation) (cs : List Char) : Issue := .here (.malformed m) cs
def malformedAhead (m : Malformation) (cs : List Char) : Issue := .ahead1 (.malformed m) cs

/-- The rest of a word whose first letter was read. -/
def readWord : List Char → List Char → Except Issue (List Char)
  | [], cs => .ok cs
  | _ :: _, [] => .error (malformedHere .endInValue [])
  | w :: ws, c :: cs =>
    if c = w then readWord ws cs else .error (malformedAhead .wordExpected (c :: cs))

/-! ## Strings -/

def hexValue? (c : Char) : Option Nat :=
  if '0' ≤ c ∧ c ≤ '9' then some (c.toNat - 48)
  else if 'a' ≤ c ∧ c ≤ 'f' then some (c.toNat - 87)
  else if 'A' ≤ c ∧ c ≤ 'F' then some (c.toNat - 55)
  else none

/-- Four hexadecimal digits. A failure has looked at four bytes, or at all that are left. -/
def readHex4 (cs : List Char) : Reading Nat :=
  match cs with
  | a :: b :: c :: d :: rest =>
    match hexValue? a, hexValue? b, hexValue? c, hexValue? d with
    | some x, some y, some z, some w => .ok (((x * 16 + y) * 16 + z) * 16 + w, rest)
    | _, _, _, _ => .error ⟨.malformed .badEscape, cs, 4, []⟩
  | _ =>
    if byteCount cs < 4 then .error (malformedHere .endInString [])
    else .error ⟨.malformed .badEscape, cs, 4, []⟩

/-- The character of an escape whose `\u` was read: a surrogate needs its partner. -/
def readUnicodeEscape (cs : List Char) : Except Issue (Char × List Char) := do
  let (high, rest) ← readHex4 cs
  if 0xDC00 ≤ high ∧ high ≤ 0xDFFF then throw (malformedHere .loneSurrogate rest)
  if high < 0xD800 ∨ 0xDBFF < high then return (Char.ofNat high, rest)
  match rest with
  | [] => throw (malformedHere .endInString [])
  | '\\' :: 'u' :: rest =>
    let (low, rest) ← readHex4 rest
    if low < 0xDC00 ∨ 0xDFFF < low then throw (malformedHere .loneSurrogate rest)
    return (Char.ofNat ((high - 0xD800) * 0x400 + (low - 0xDC00) + 0x10000), rest)
  | '\\' :: [] => throw (malformedHere .endInString [])
  | '\\' :: rest => throw (malformedAhead .hexEscapeEnd rest)
  | rest => throw (malformedAhead .hexEscapeEnd rest)

/-- The character of an escape whose backslash was read. -/
def readEscape (cs : List Char) : Except Issue (Char × List Char) :=
  match cs with
  | [] => .error (malformedHere .endInString [])
  | c :: rest =>
    if c = '"' then .ok ('"', rest)
    else if c = '\\' then .ok ('\\', rest)
    else if c = '/' then .ok ('/', rest)
    else if c = 'b' then .ok ('\x08', rest)
    else if c = 'f' then .ok ('\x0c', rest)
    else if c = 'n' then .ok ('\n', rest)
    else if c = 'r' then .ok ('\r', rest)
    else if c = 't' then .ok ('\t', rest)
    else if c = 'u' then readUnicodeEscape rest
    else .error (malformedAhead .badEscape cs)

/-- The characters of a string whose opening quote was read, up to its closing quote. -/
def readChars : Nat → List Char → Except Issue (List Char × List Char)
  | 0, cs => .error (malformedHere .endInString cs)
  | fuel + 1, cs =>
    match cs with
    | [] => .error (malformedHere .endInString [])
    | c :: rest =>
      if c = '"' then .ok ([], rest)
      else if c = '\\' then do
        let (x, rest) ← readEscape rest
        let (xs, rest) ← readChars fuel rest
        return (x :: xs, rest)
      else if c.toNat < 0x20 then .error (malformedAhead .controlCharacter cs)
      else do
        let (xs, rest) ← readChars fuel rest
        return (c :: xs, rest)

/-- A string whose opening quote was read. -/
def readString (cs : List Char) : Except Issue (String × List Char) := do
  let (xs, rest) ← readChars (cs.length + 1) cs
  return (String.ofList xs, rest)

/-- Passes over a string whose opening quote was read; surrogates need no partners, and a control
character is not looked at. -/
def skipChars : Nat → List Char → Except Issue (List Char)
  | 0, cs => .error (malformedHere .endInString cs)
  | fuel + 1, cs =>
    match cs with
    | [] => .error (malformedHere .endInString [])
    | '"' :: rest => .ok rest
    | '\\' :: [] => .error (malformedHere .endInString [])
    | '\\' :: 'u' :: rest => do
      let (_, rest) ← readHex4 rest
      skipChars fuel rest
    | '\\' :: c :: rest =>
      if c ∈ ['"', '\\', '/', 'b', 'f', 'n', 'r', 't'] then skipChars fuel rest
      else .error (malformedAhead .badEscape (c :: rest))
    | c :: rest =>
      if c.toNat < 0x20 then .error (malformedHere .controlCharacter (c :: rest))
      else skipChars fuel rest

/-! ## Numbers -/

def digitValue (c : Char) : Nat := c.toNat - 48
def isDigit (c : Char) : Bool := '0' ≤ c && c ≤ '9'

/-- The largest significand that is kept; further digits only move the point. -/
def maxSignificand : Nat := maxUnsigned64

/-- Digits taken into a significand while it fits, how many were taken, and the rest. -/
def takeDigits : Nat → List Char → Nat × Nat × List Char
  | m, [] => (m, 0, [])
  | m, c :: cs =>
    if isDigit c then
      let next := m * 10 + digitValue c
      if next ≤ maxSignificand then
        let (m', n, rest) := takeDigits next cs
        (m', n + 1, rest)
      else (m, 0, c :: cs)
    else (m, 0, c :: cs)

/-- The double nearest to a power of ten. -/
def powerOfTen (n : Nat) : Float := Float.ofScientific 1 false n

/-- A significand scaled by a power of ten, in steps that each are a multiplication or division
of doubles; `none` if it is too large. -/
def scale : Nat → Float → Int → Option Float
  | 0, f, _ => some f
  | fuel + 1, f, e =>
    if e.natAbs ≤ 308 then
      if 0 ≤ e then
        let g := f * powerOfTen e.natAbs
        if g.isInf then none else some g
      else some (f / powerOfTen e.natAbs)
    else if f == 0.0 then some f
    else if 0 ≤ e then none
    else scale fuel (f / powerOfTen 308) (e + 308)

def doubleNumber (positive : Bool) (f : Float) : JsonNumber :=
  .double (if positive then f.toBits else (-f).toBits)

def readScaled (positive : Bool) (m : Nat) (e : Int) (rest : List Char) : Reading JsonNumber :=
  match scale (e.natAbs / 308 + 2) (Float.ofNat m) e with
  | some f => .ok (doubleNumber positive f, rest)
  | none => .error (malformedHere .numberTooLarge rest)

/-- The largest exponent that is read as written. -/
def maxExponent : Nat := 2147483647

def clampExponent (e : Int) : Int := max (-2147483648) (min maxExponent e)

/-- Digits of an exponent while it fits; the flag says that it does not. -/
def takeExponent : Nat → List Char → Nat × Bool × List Char
  | n, [] => (n, false, [])
  | n, c :: cs =>
    if isDigit c then
      let next := n * 10 + digitValue c
      if next ≤ maxExponent then takeExponent next cs else (n, true, cs)
    else (n, false, c :: cs)

/-- The exponent of a number whose `e` was read. -/
def readExponent (positive : Bool) (m : Nat) (start : Int) (cs : List Char) :
    Reading JsonNumber :=
  let (up, cs) := match cs with
    | '+' :: rest => (true, rest)
    | '-' :: rest => (false, rest)
    | _ => (true, cs)
  match cs with
  | [] => .error (malformedHere .endInValue [])
  | c :: rest =>
    if isDigit c then
      let (e, overflow, rest) := takeExponent (digitValue c) rest
      if overflow then
        if m ≠ 0 ∧ up then .error (malformedHere .numberTooLarge rest)
        else .ok (doubleNumber positive 0.0, rest.dropWhile isDigit)
      else
        readScaled positive m (clampExponent (if up then start + e else start - e)) rest
    else .error (malformedAhead .badNumber cs)

/-- What follows the digits of a number that is not an integer. -/
def readTail (positive : Bool) (m : Nat) (e : Int) (cs : List Char) : Reading JsonNumber :=
  match cs with
  | 'e' :: rest => readExponent positive m e rest
  | 'E' :: rest => readExponent positive m e rest
  | _ => readScaled positive m e cs

/-- The decimal places of a number whose point was read. -/
def readPlaces (positive : Bool) (m : Nat) (e : Int) (cs : List Char) : Reading JsonNumber :=
  let (m', n, rest) := takeDigits m cs
  match rest with
  | c :: _ =>
    if isDigit c then readTail positive m' (e - n) (rest.dropWhile isDigit)
    else if n = 0 then .error (malformedAhead .badNumber rest)
    else readTail positive m' (e - n) rest
  | [] => if n = 0 then .error (malformedHere .endInValue []) else readTail positive m' (e - n) []

/-- An integer part that does not fit the significand. -/
def readLong (positive : Bool) (m : Nat) (cs : List Char) : Reading JsonNumber :=
  let extra := cs.takeWhile isDigit
  match cs.dropWhile isDigit with
  | '.' :: rest => readPlaces positive m extra.length rest
  | rest => readTail positive m extra.length rest

/-- What follows an integer part that fits. -/
def readFraction (positive : Bool) (m : Nat) (cs : List Char) : Reading JsonNumber :=
  match cs with
  | '.' :: rest => readPlaces positive m 0 rest
  | 'e' :: rest => readExponent positive m 0 rest
  | 'E' :: rest => readExponent positive m 0 rest
  | _ =>
    if positive then .ok (.natural m, cs)
    else if m = 0 ∨ maxSigned64 + 1 < m then .ok (doubleNumber false (Float.ofNat m), cs)
    else .ok (.negative m, cs)

/-- A number whose sign, if any, was read. -/
def readNumber (positive : Bool) (cs : List Char) : Reading JsonNumber :=
  match cs with
  | [] => .error (malformedHere .endInValue [])
  | '0' :: rest =>
    match rest with
    | c :: _ => if isDigit c then .error (malformedAhead .badNumber rest)
      else readFraction positive 0 rest
    | [] => readFraction positive 0 rest
  | c :: rest =>
    if isDigit c then
      let (m, _, rest) := takeDigits (digitValue c) rest
      match rest with
      | d :: _ => if isDigit d then readLong positive m rest else readFraction positive m rest
      | [] => readFraction positive m rest
    else .error (malformedAhead .badNumber cs)

/-- Passes over an exponent whose `e` was read. -/
def skipExponent (cs : List Char) : Except Issue (List Char) :=
  let cs := match cs with
    | '+' :: rest => rest
    | '-' :: rest => rest
    | _ => cs
  match cs with
  | c :: rest => if isDigit c then .ok (rest.dropWhile isDigit)
    else .error (malformedAhead .badNumber cs)
  | [] => .error (malformedHere .badNumber [])

/-- Passes over the integer part of a number whose sign, if any, was read. -/
def skipWhole (cs : List Char) : Except Issue (List Char) :=
  match cs with
  | [] => .error (malformedHere .badNumber [])
  | c :: rest =>
    if c = '0' then
      if (rest.head?.map isDigit).getD false then .error (malformedAhead .badNumber rest)
      else .ok rest
    else if isDigit c then .ok (rest.dropWhile isDigit)
    else .error (malformedAhead .badNumber cs)

/-- Passes over an exponent, if there is one. -/
def skipTail (cs : List Char) : Except Issue (List Char) :=
  match cs with
  | 'e' :: rest => skipExponent rest
  | 'E' :: rest => skipExponent rest
  | _ => .ok cs

/-- Passes over a number whose sign, if any, was read. -/
def skipNumber (cs : List Char) : Except Issue (List Char) := do
  match ← skipWhole cs with
  | '.' :: places =>
    let after := places.dropWhile isDigit
    if after.length = places.length then throw (malformedAhead .badNumber places)
    skipTail after
  | rest => skipTail rest

end ClientSession.Json
