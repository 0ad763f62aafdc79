/-!
# Shortest decimals

The decimal with the fewest digits that lies in the rounding interval of a binary
floating-point number, the nearest of those with equally many digits. All arithmetic is on
natural numbers.
-/

namespace ClientSession.Decimal

/-- A finite double is `mantissa * 2 ^ exponent`; `narrow` says that the next smaller double is
only half as far away as the next larger one. -/
structure Binary where
  mantissa : Nat
  exponent : Int
  narrow : Bool
deriving DecidableEq

/-- The magnitude of the double with these bits, if it is finite. -/
def Binary.ofBits? (bits : UInt64) : Option Binary :=
  let fraction : Nat := bits.toNat % 4503599627370496
  let field : Nat := bits.toNat / 4503599627370496 % 2048
  if field = 2047 then none
  else if field = 0 then some ⟨fraction, -1074, false⟩
  else some ⟨fraction + 4503599627370496, (field : Int) - 1075, decide (fraction = 0 ∧ 1 < field)⟩

/-- A decimal `digits * 10 ^ exponent`. -/
structure Scientific where
  digits : Nat
  exponent : Int
deriving DecidableEq

/-- The largest `e` with `10 ^ e * den ≤ num`, found from a start that is too small by at most
the fuel. -/
def climb (num den : Nat) : Nat → Int → Int
  | 0, e => e
  | fuel + 1, e =>
    let next := e + 1
    if Nat.pow 10 next.toNat * den ≤ num * Nat.pow 10 (-next).toNat then climb num den fuel next else e

/-- Drops the factors of ten of the digits. -/
def strip : Nat → Scientific → Scientific
  | 0, s => s
  | fuel + 1, s => if s.digits ≠ 0 ∧ s.digits % 10 = 0 then strip fuel ⟨s.digits / 10, s.exponent + 1⟩
    else s

/-- The grid point with `n` digits nearest to the number, if one lies in its rounding interval. -/
def onGrid? (num den low high : Nat) (closed : Bool) (magnitude : Int) (n : Nat) :
    Option Scientific :=
  let p : Int := magnitude - n + 1
  let up := Nat.pow 10 p.toNat
  let down := Nat.pow 10 (-p).toNat
  -- a grid point k stands for k * up / down, the number for num / den
  let inside (k : Nat) : Bool :=
    let x := k * up * den
    if closed then low * down ≤ x && x ≤ high * down else low * down < x && x < high * down
  let k := num * down / (up * den)
  let twice := 2 * num * down
  let middle := (2 * k + 1) * up * den
  match inside k && k ≠ 0, inside (k + 1) with
  | true, true =>
    if twice < middle ∨ (twice = middle ∧ k % 2 = 0) then some ⟨k, p⟩ else some ⟨k + 1, p⟩
  | true, false => some ⟨k, p⟩
  | false, true => some ⟨k + 1, p⟩
  | false, false => none

/-- The shortest decimal that reads back as the number; a zero mantissa gives zero. -/
def shortest (b : Binary) : Scientific :=
  if b.mantissa = 0 then ⟨0, 0⟩ else
    let scaled := b.exponent - 2
    let factor := Nat.pow 2 scaled.toNat
    let den := Nat.pow 2 (-scaled).toNat
    let num := 4 * b.mantissa * factor
    let low := (4 * b.mantissa - if b.narrow then 1 else 2) * factor
    let high := (4 * b.mantissa + 2) * factor
    let magnitude := climb num den 660 (-340)
    let found := (List.range 17).findSome? fun i =>
      onGrid? num den low high (b.mantissa % 2 = 0) magnitude (i + 1)
    strip 20 (found.getD ⟨0, 0⟩)

end ClientSession.Decimal
