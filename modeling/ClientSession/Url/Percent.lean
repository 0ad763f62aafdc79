import ClientSession.Bytes.Utf8
import ClientSession.Json.Issue
import ClientSession.Text.Basic

/-!
# Percent encoding

A byte is written as a percent sign and two upper-case hexadecimal digits. Which ASCII characters
are encoded depends on the part of the URL; other characters always are.
-/

namespace ClientSession.Url

open Text (hexDigit?)

/-- Whether an ASCII character is encoded in some part of a URL. -/
abbrev EncodeSet := Char → Bool

def isControl (c : Char) : Bool := c.toNat < 0x20 || c.toNat = 0x7F

def controlSet : EncodeSet := isControl

def fragmentSet : EncodeSet := fun c => isControl c || c ∈ [' ', '"', '<', '>', '\x60']

def pathSet : EncodeSet := fun c => fragmentSet c || c ∈ ['#', '?', '\x7b', '\x7d']

def userinfoSet : EncodeSet := fun c =>
  pathSet c || c ∈ ['/', ':', ';', '=', '@', '[', '\\', ']', '^', '|']

def querySet : EncodeSet := fun c => isControl c || c ∈ [' ', '"', '#', '<', '>']

/-- Queries of the web's own schemes. -/
def specialQuerySet : EncodeSet := fun c => querySet c || c = '\''

def upperHexDigit (n : Nat) : Char :=
  if n < 10 then Char.ofNat (n + 48) else Char.ofNat (n + 55)

def encodeByte (b : UInt8) : List Char :=
  ['%', upperHexDigit (b.toNat / 16), upperHexDigit (b.toNat % 16)]

/-- A character as it stands in a part of a URL. -/
def encodeChar (set : EncodeSet) (c : Char) : List Char :=
  if 0x80 ≤ c.toNat then (Utf8.encode (String.singleton c)).flatMap encodeByte
  else if set c then encodeByte (UInt8.ofNat c.toNat)
  else [c]

def encode (set : EncodeSet) (cs : List Char) : List Char := cs.flatMap (encodeChar set)

/-- The bytes of a text in which encoded bytes are decoded. -/
def decode : List Char → List UInt8
  | '%' :: a :: b :: rest =>
    match hexDigit? a, hexDigit? b with
    | some x, some y => UInt8.ofNat (x * 16 + y) :: decode rest
    | _, _ => 0x25 :: decode (a :: b :: rest)
  | c :: rest => Utf8.encode (String.singleton c) ++ decode rest
  | [] => []

end ClientSession.Url
