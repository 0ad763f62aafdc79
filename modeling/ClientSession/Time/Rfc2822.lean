import ClientSession.Time.Rfc3339

/-!
# Stamps from RFC 2822 text

Blanks may fold over lines and may hold comments, which nest up to a limit. The weekday is optional
and is not compared with the date. A year of two digits lies between 1950 and 2049; other years start
at 1900. The sign of a numeric zone belongs to its hours.
-/

namespace ClientSession.Rfc2822

open Rfc3339 (takeDigits takeChar)

def isTabOrSpace (c : Char) : Bool := c = ' ' || c = '\t'

/-- A run of spaces and tabs that is not empty. -/
def takeSpaces : List Char → Option (List Char)
  | c :: rest => if isTabOrSpace c then some (rest.dropWhile isTabOrSpace) else none
  | [] => none

/-- Line breaks, each followed by spaces. -/
def takeFolds : Nat → List Char → Option (List Char)
  | fuel + 1, '\r' :: '\n' :: rest => do takeFolds fuel (← takeSpaces rest)
  | _, cs => some cs

/-- Folding white space. A carriage return on its own counts as white space; two in a row do not. -/
def takeBlank (cs : List Char) : Option (List Char) :=
  match cs with
  | '\r' :: '\n' :: rest => takeSpaces rest
  | '\r' :: rest => if rest.head? = some '\r' then none else some rest
  | _ => do takeFolds cs.length (← takeSpaces cs)

/-- As much folding white space as there is. -/
def dropBlanks : Nat → List Char → List Char
  | 0, cs => cs
  | fuel + 1, cs =>
    match takeBlank cs with
    | some rest => dropBlanks fuel rest
    | none => cs

/-- A character that stands for itself inside a comment. -/
def isCommentText (c : Char) : Bool :=
  let n := c.toNat
  0 < n && n ≤ 127 && !(c ∈ ['\t', '\n', '\r', ' ', '(', ')', '\\'])

/-- A character that a backslash quotes alone. -/
def isQuotable (c : Char) : Bool := 0 < c.toNat && c.toNat ≤ 127 && c ≠ '\n' && c ≠ '\r'

/-- What follows line feeds and then carriage returns. -/
def dropBreaks (cs : List Char) : List Char := (cs.dropWhile (· = '\n')).dropWhile (· = '\r')

/-- What follows text in the old form: runs of line breaks and of ASCII up to a closing
parenthesis. -/
def dropOldText : Nat → List Char → List Char
  | 0, cs => cs
  | fuel + 1, cs =>
    match dropBreaks cs with
    | [] => []
    | c :: rest =>
      if c.toNat ≤ 127 && c ≠ ')' && c ≠ '\n' && c ≠ '\r' then dropOldText fuel rest
      else c :: rest

/-- What follows the text that a backslash quotes: one character, or where that is none to be quoted
alone, text in the old form. -/
def takeQuoted (cs : List Char) : Option (List Char) :=
  match cs with
  | [] => none
  | c :: rest =>
    if isQuotable c then some rest
    else
      let after := dropOldText (cs.length + 1) cs
      if after.length = cs.length then none else some after

/-- Comments nest no deeper. -/
def deepestComment : Nat := 31

/-- What is left of a comment that is `depth` parentheses deep. -/
def takeComment : Nat → Nat → List Char → Option (List Char)
  | 0, _, _ => none
  | _ + 1, 0, cs => some cs
  | fuel + 1, depth + 1, cs =>
    match dropBlanks cs.length cs with
    | ')' :: rest => takeComment fuel depth rest
    | '(' :: rest =>
      if deepestComment ≤ depth + 1 then none else takeComment fuel (depth + 2) rest
    | '\\' :: rest => do takeComment fuel (depth + 1) (← takeQuoted rest)
    | c :: rest => if isCommentText c then takeComment fuel (depth + 1) rest else none
    | [] => none

/-- One piece of white space or one comment. -/
def takePiece (cs : List Char) : Option (List Char) :=
  match takeBlank cs with
  | some rest => some rest
  | none =>
    match cs with
    | '(' :: rest => takeComment (cs.length + 1) 1 rest
    | _ => none

/-- White space and comments, possibly none. -/
def dropPieces : Nat → List Char → List Char
  | 0, cs => cs
  | fuel + 1, cs =>
    match takePiece cs with
    | some rest => dropPieces fuel rest
    | none => cs

def optionalGap (cs : List Char) : List Char := dropPieces cs.length cs

/-- White space and comments, at least one. -/
def gap (cs : List Char) : Option (List Char) := (takePiece cs).map optionalGap

def lower (c : Char) : Char := c.toLower

/-- The first of the names that the text starts with, without regard to case. -/
def takeName {α : Type} (names : List (String × α)) (cs : List Char) : Option (α × List Char) :=
  names.findSome? fun (name, v) =>
    let n := name.length
    if (cs.take n).map lower = name.toList.map lower then some (v, cs.drop n) else none

def weekdays : List (String × Unit) :=
  ["Mon", "Tue", "Wed", "Thu", "Fri", "Sat", "Sun"].map (·, ())

def months : List (String × Nat) :=
  [("Jan", 1), ("Feb", 2), ("Mar", 3), ("Apr", 4), ("May", 5), ("Jun", 6), ("Jul", 7), ("Aug", 8),
    ("Sep", 9), ("Oct", 10), ("Nov", 11), ("Dec", 12)]

/-- The zones that are named by three letters, and their hours. -/
def zones : List (String × Int) :=
  [("GMT", 0), ("EST", -5), ("EDT", -4), ("CST", -6), ("CDT", -5), ("MST", -7), ("MDT", -6),
    ("PST", -8), ("PDT", -7)]

/-- One or two digits. -/
def takeDay (cs : List Char) : Option (Nat × List Char) :=
  (takeDigits 2 cs).orElse fun _ => takeDigits 1 cs

def takeYear (cs : List Char) : Option (Nat × List Char) :=
  match takeDigits 4 cs with
  | some (year, rest) => if 1900 ≤ year then (takeBlank rest).map (year, ·) else none
  | none => do
    let (year, rest) ← takeDigits 2 cs
    let rest ← gap rest
    return (if year < 50 then year + 2000 else year + 1900, rest)

/-- A military zone letter, which says nothing about the offset. -/
def isZoneLetter (c : Char) : Bool :=
  ('a' ≤ lower c && lower c ≤ 'z') && lower c ≠ 'j'

/-- A zone that only the end of the text can follow: a letter, or universal time. -/
def isLastZone (cs : List Char) : Bool :=
  match cs with
  | [c] => isZoneLetter c
  | [a, b] => lower a = 'u' && lower b = 't'
  | _ => false

/-- The offset of a zone in seconds. -/
def takeZone (cs : List Char) : Option (Int × List Char) :=
  match takeName zones cs with
  | some (hours, rest) => some (hours * 3600, rest)
  | none => do
    if isLastZone cs then return (0, [])
    match cs with
    | [] => none
    | c :: rest =>
      if c ≠ '+' ∧ c ≠ '-' then none
      let (hours, rest) ← takeDigits 2 rest
      let (minutes, rest) ← takeDigits 2 rest
      if 25 < hours ∨ 59 < minutes then none
      let seconds : Int := hours * 3600 + minutes * 60
      return (if c = '-' ∧ hours ≠ 0 then -seconds else seconds, rest)

/-- The seconds, when a colon starts them, and the gap behind the time. -/
def takeSeconds (cs : List Char) : Option (Nat × List Char) :=
  match takeChar ':' (optionalGap cs) with
  | some rest => do
    let (second, rest) ← takeDigits 2 (optionalGap rest)
    return (second, ← gap rest)
  | none => (gap cs).map (0, ·)

/-- The stamp that a text denotes. -/
def read? (text : String) : Option Stamp := do
  let cs := optionalGap text.toList
  let cs ← match takeName weekdays cs with
    | some (_, rest) => (takeChar ',' rest).map optionalGap
    | none => some cs
  let (day, cs) ← takeDay cs
  let cs ← gap cs
  let (month, cs) ← takeName months cs
  let cs ← gap cs
  let (year, cs) ← takeYear cs
  let (hour, cs) ← takeDigits 2 cs
  let cs ← takeChar ':' (optionalGap cs)
  let (minute, cs) ← takeDigits 2 (optionalGap cs)
  let (second, cs) ← takeSeconds cs
  let (offset, cs) ← takeZone cs
  if !(optionalGap cs).isEmpty then none
  Rfc3339.stamp? ⟨year, month, day⟩ hour minute second 0 offset

end ClientSession.Rfc2822
