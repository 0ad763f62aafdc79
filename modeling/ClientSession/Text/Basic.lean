import ClientSession.Bounds

/-!
# Digits, blanks and parts

What texts are made of where they are read: digits in base ten and sixteen, blank characters and the
words between them, and the parts between the places where a separator stands.
-/

namespace ClientSession.Text

/-! ## Decimal digits

Reading admits one sign where the reader says so and bounds the value; writing pads with zeros. -/

/-- The value of a decimal digit. -/
def digit? (c : Char) : Option Nat :=
  if '0' ≤ c ∧ c ≤ '9' then some (c.toNat - '0'.toNat) else none

def isDigit (c : Char) : Bool := (digit? c).isSome

/-- The number that a run of digits denotes; other characters make it unreadable. -/
def digits? (cs : List Char) : Option Nat :=
  cs.foldl (fun acc c => acc.bind fun n => (digit? c).map (n * 10 + ·)) (some 0)

/-- A non-empty run of digits, an optional plus sign before it, at most `bound`. -/
def natural? (bound : Nat) (cs : List Char) : Option Nat :=
  let body := match cs with
    | '+' :: rest => rest
    | _ => cs
  if body.isEmpty then none else
    match digits? body with
    | some n => if n ≤ bound then some n else none
    | none => none

/-- A non-empty run of digits with an optional sign, within 64 signed bits. -/
def integer64? (cs : List Char) : Option Int :=
  match cs with
  | '-' :: rest =>
    if rest.isEmpty then none else
      match digits? rest with
      | some n => if n ≤ maxSigned64 + 1 then some (-(n : Int)) else none
      | none => none
  | _ => (natural? maxSigned64 cs).map Int.ofNat

/-- The decimal text of a number, padded with zeros to a width. -/
def padded (width n : Nat) : String :=
  let text := toString n
  String.ofList (List.replicate (width - text.length) '0') ++ text

/-! ## Hexadecimal digits

Reading takes digits of either case; writing uses lower case. -/

/-- The value of a hexadecimal digit. -/
def hexDigit? (c : Char) : Option Nat :=
  if '0' ≤ c ∧ c ≤ '9' then some (c.toNat - 48)
  else if 'a' ≤ c ∧ c ≤ 'f' then some (c.toNat - 87)
  else if 'A' ≤ c ∧ c ≤ 'F' then some (c.toNat - 55)
  else none

/-- The number that hexadecimal digits denote; there is at least one. -/
def hexNumber? (cs : List Char) : Option Nat :=
  if cs.isEmpty then none
  else cs.foldl (fun acc c => do return (← acc) * 16 + (← hexDigit? c)) (some 0)

/-- The lower-case hexadecimal digits of a number, at least one. -/
def hexText (n : Nat) : String := String.ofList (Nat.toDigits 16 n)

/-! ## Blank characters

Those with the Unicode property White_Space, and trimming by them. -/

/-- The character has the property White_Space. -/
def isBlank (c : Char) : Bool :=
  let n := c.toNat
  (9 ≤ n && n ≤ 13) || n == 0x20 || n == 0x85 || n == 0xA0 || n == 0x1680 ||
    (0x2000 ≤ n && n ≤ 0x200A) || n == 0x2028 || n == 0x2029 || n == 0x202F ||
    n == 0x205F || n == 0x3000

/-- The characters without a leading run that satisfies `p`. -/
def trimStart (p : Char → Bool) (cs : List Char) : List Char := cs.dropWhile p

/-- The characters without a trailing run that satisfies `p`. -/
def trimEnd (p : Char → Bool) (cs : List Char) : List Char := (cs.reverse.dropWhile p).reverse

/-- The text without blanks at its ends. -/
def trim (s : String) : String := String.ofList (trimEnd isBlank (trimStart isBlank s.toList))

/-- The text holds blanks only. -/
def isAllBlank (s : String) : Bool := s.toList.all isBlank

/-- The maximal runs of characters that are not blank. -/
def runs (cs : List Char) : List (List Char) :=
  let step (c : Char) : List Char × List (List Char) → List Char × List (List Char)
    | (run, done) =>
      if isBlank c then ([], if run.isEmpty then done else run :: done) else (c :: run, done)
  let (run, done) := cs.foldr step ([], [])
  if run.isEmpty then done else run :: done

/-- The words of a text. -/
def words (s : String) : List String := (runs s.toList).map String.ofList

/-! ## Separators -/

/-- The parts of a text between the places where a separator stands; a text without a separator is
its only part. -/
def splitOnChar (sep : Char) (cs : List Char) : List (List Char) :=
  cs.foldr (fun c acc => match acc with
    | [] => [[c]]
    | part :: parts => if c = sep then [] :: part :: parts else (c :: part) :: parts) [[]]

end ClientSession.Text
