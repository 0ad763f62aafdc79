/-!
# Base64

Three bytes are four characters of an alphabet of sixty-four. A last group of one or two bytes is
two or three characters whose unused bits are zero; the padded form fills it up with `=`. Reading
accepts exactly the texts that writing produces.
-/

namespace ClientSession.Base64

/-- How the numbers below sixty-four are spelled. -/
structure Alphabet where
  /-- The spellings of 62 and 63. -/
  last : Char × Char

def standard : Alphabet := ⟨('+', '/')⟩

/-- The alphabet for tokens and addresses. -/
def urlSafe : Alphabet := ⟨('-', '_')⟩

namespace Alphabet

def spell (a : Alphabet) (n : Nat) : Char :=
  if n < 26 then Char.ofNat (65 + n)
  else if n < 52 then Char.ofNat (71 + n)
  else if n < 62 then Char.ofNat (n - 4)
  else if n = 62 then a.last.1
  else a.last.2

def value? (a : Alphabet) (c : Char) : Option Nat :=
  if 'A' ≤ c ∧ c ≤ 'Z' then some (c.toNat - 65)
  else if 'a' ≤ c ∧ c ≤ 'z' then some (c.toNat - 71)
  else if '0' ≤ c ∧ c ≤ '9' then some (c.toNat + 4)
  else if c = a.last.1 then some 62
  else if c = a.last.2 then some 63
  else none

end Alphabet

/-- The padded text of bytes. -/
def encode (a : Alphabet) : List UInt8 → List Char
  | [] => []
  | [x] => [a.spell (x.toNat / 4), a.spell (x.toNat % 4 * 16), '=', '=']
  | [x, y] =>
    [a.spell (x.toNat / 4), a.spell (x.toNat % 4 * 16 + y.toNat / 16),
      a.spell (y.toNat % 16 * 4), '=']
  | x :: y :: z :: rest =>
    a.spell (x.toNat / 4) :: a.spell (x.toNat % 4 * 16 + y.toNat / 16) ::
      a.spell (y.toNat % 16 * 4 + z.toNat / 64) :: a.spell (z.toNat % 64) :: encode a rest

/-- The byte of two characters whose other bits are zero. -/
def lastOne? (a : Alphabet) (p q : Char) : Option (List UInt8) := do
  let x ← a.value? p
  let y ← a.value? q
  if y % 16 = 0 then some [UInt8.ofNat (x * 4 + y / 16)] else none

/-- The bytes of three characters whose other bits are zero. -/
def lastTwo? (a : Alphabet) (p q r : Char) : Option (List UInt8) := do
  let x ← a.value? p
  let y ← a.value? q
  let z ← a.value? r
  if z % 4 = 0 then some [UInt8.ofNat (x * 4 + y / 16), UInt8.ofNat (y % 16 * 16 + z / 4)]
  else none

/-- The bytes of four characters. -/
def group? (a : Alphabet) (p q r s : Char) : Option (List UInt8) := do
  let x ← a.value? p
  let y ← a.value? q
  let z ← a.value? r
  let w ← a.value? s
  some [UInt8.ofNat (x * 4 + y / 16), UInt8.ofNat (y % 16 * 16 + z / 4),
    UInt8.ofNat (z % 4 * 64 + w)]

/-- The bytes of a padded text. -/
def decode? (a : Alphabet) : List Char → Option (List UInt8)
  | [] => some []
  | p :: q :: r :: s :: rest =>
    if s = '=' then
      if rest.isEmpty then if r = '=' then lastOne? a p q else lastTwo? a p q r
      else none
    else do
      let bytes ← group? a p q r s
      return bytes ++ (← decode? a rest)
  | _ => none

/-- The bytes of a text without padding. -/
def decodeUnpadded? (a : Alphabet) : List Char → Option (List UInt8)
  | [] => some []
  | [_] => none
  | [p, q] => lastOne? a p q
  | [p, q, r] => lastTwo? a p q r
  | p :: q :: r :: s :: rest => do
    let bytes ← group? a p q r s
    return bytes ++ (← decodeUnpadded? a rest)

end ClientSession.Base64
