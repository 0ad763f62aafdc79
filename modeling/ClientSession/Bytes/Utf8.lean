/-!
# Text as bytes

The UTF-8 bytes of a text, the text that bytes denote, and the characters at the start of bytes
that need not be well formed as a whole.
-/

namespace ClientSession.Utf8

/-- The bytes of a text. -/
def encode (s : String) : List UInt8 := s.toUTF8.data.toList

/-- The text of bytes, if they are well formed. -/
def decode? (bytes : List UInt8) : Option String := String.fromUTF8? ⟨bytes.toArray⟩

/-- The payload of a continuation byte. -/
def continuation? (b : UInt8) : Option Nat :=
  if 0x80 ≤ b ∧ b < 0xC0 then some (b.toNat % 64) else none

/-- A character of a given number, unless it had a shorter form or is a surrogate. -/
def scalar? (least n : Nat) : Option Char :=
  if least ≤ n ∧ n.isValidChar then some (Char.ofNat n) else none

/-- The character that well-formed bytes start with, and the other bytes. -/
def takeChar? : List UInt8 → Option (Char × List UInt8)
  | [] => none
  | a :: rest =>
    if a < 0x80 then some (Char.ofNat a.toNat, rest)
    else if a < 0xC0 then none
    else if a < 0xE0 then
      match rest with
      | b :: rest => do
        let x ← continuation? b
        return (← scalar? 0x80 (a.toNat % 32 * 64 + x), rest)
      | _ => none
    else if a < 0xF0 then
      match rest with
      | b :: c :: rest => do
        let x ← continuation? b
        let y ← continuation? c
        return (← scalar? 0x800 ((a.toNat % 16 * 64 + x) * 64 + y), rest)
      | _ => none
    else if a < 0xF8 then
      match rest with
      | b :: c :: d :: rest => do
        let x ← continuation? b
        let y ← continuation? c
        let z ← continuation? d
        return (← scalar? 0x10000 (((a.toNat % 8 * 64 + x) * 64 + y) * 64 + z), rest)
      | _ => none
    else none

/-- The characters before the first byte that is not well formed. -/
def leadingChars (bytes : List UInt8) : List Char :=
  go bytes.length bytes
where
  go : Nat → List UInt8 → List Char
    | 0, _ => []
    | fuel + 1, bytes =>
      match takeChar? bytes with
      | some (c, rest) => c :: go fuel rest
      | none => []

end ClientSession.Utf8
