import ClientSession.Json.Value
import ClientSession.Text.Basic

/-!
# Printing JSON

The compact form has no blanks; the indented form puts each item and each field on its own line,
two spaces deeper than the line of its container. Text is escaped only where JSON demands it.
-/

namespace ClientSession.Json

/-- A hexadecimal digit in lower case. -/
def hexDigit (n : Nat) : Char :=
  if n < 10 then Char.ofNat (n + 48) else Char.ofNat (n + 87)

/-- A character as it stands inside a JSON string. -/
def escape (c : Char) : List Char :=
  if c = '"' then ['\\', '"']
  else if c = '\\' then ['\\', '\\']
  else if c = '\x08' then ['\\', 'b']
  else if c = '\x0c' then ['\\', 'f']
  else if c = '\n' then ['\\', 'n']
  else if c = '\r' then ['\\', 'r']
  else if c = '\t' then ['\\', 't']
  else if c.toNat < 0x20 then
    ['\\', 'u', '0', '0', hexDigit (c.toNat / 16), hexDigit (c.toNat % 16)]
  else [c]

/-- A text between quotes. -/
def quote (s : String) : List Char := '"' :: (s.toList.flatMap escape ++ ['"'])

/-- The text of a finite double: positional with at least one decimal place between `1e-5` and
`1e16`, otherwise one leading digit and a signed exponent. -/
def doubleText (bits : UInt64) : String :=
  let sign := if maxSigned64 < bits.toNat then "-" else ""
  match Decimal.Binary.ofBits? bits with
  | none => "null"
  | some b =>
    let s := Decimal.shortest b
    if s.digits = 0 then sign ++ "0.0" else
      let digits := (toString s.digits).toList
      let count : Int := digits.length
      let point := count + s.exponent
      let text :=
        if 0 ≤ s.exponent ∧ point ≤ 16 then
          digits ++ List.replicate s.exponent.toNat '0' ++ ['.', '0']
        else if 0 < point ∧ point ≤ 16 then
          digits.take point.toNat ++ '.' :: digits.drop point.toNat
        else if -5 < point ∧ point ≤ 0 then
          '0' :: '.' :: (List.replicate (-point).toNat '0' ++ digits)
        else
          let e := point - 1
          let mantissa := match digits with
            | [d] => [d]
            | d :: more => d :: '.' :: more
            | [] => []
          mantissa ++ 'e' :: ((if e < 0 then '-' else '+') :: (toString e.natAbs).toList)
      sign ++ String.ofList text

def numberText : JsonNumber → String
  | .natural n => toString n
  | .negative n => "-" ++ toString n
  | .double bits => doubleText bits

mutual

/-- The compact text of a value. -/
def print : Json → List Char
  | .null => "null".toList
  | .bool b => (if b then "true" else "false").toList
  | .number n => (numberText n).toList
  | .string s => quote s
  | .array items => '[' :: (printItems items ++ [']'])
  | .object fields => '{' :: (printFields fields ++ ['}'])

def printItems : List Json → List Char
  | [] => []
  | [v] => print v
  | v :: w :: rest => print v ++ ',' :: printItems (w :: rest)

def printFields : List (String × Json) → List Char
  | [] => []
  | [(k, v)] => quote k ++ ':' :: print v
  | (k, v) :: f :: rest => quote k ++ ':' :: (print v ++ ',' :: printFields (f :: rest))

end

/-- The compact text of a value. -/
def compact (v : Json) : String := String.ofList (print v)

end ClientSession.Json
