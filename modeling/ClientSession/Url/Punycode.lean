import ClientSession.Bounds

/-!
# Punycode

A label of a domain name as letters, digits and hyphens: its ASCII characters, a hyphen, and the
other characters as a sequence of generalised variable-length integers.
-/

namespace ClientSession.Punycode

def base : Nat := 36
def initialBias : Nat := 72
def initialCode : Nat := 128

/-- The bias after an insertion, which follows the size of the last difference. -/
def adapt (delta points : Nat) (first : Bool) : Nat :=
  let delta := if first then delta / 700 else delta / 2
  let delta := delta + delta / points
  let rec go : Nat → Nat → Nat → Nat × Nat
    | 0, delta, k => (delta, k)
    | fuel + 1, delta, k => if 455 < delta then go fuel (delta / 35) (k + base) else (delta, k)
  let (delta, k) := go 64 delta 0
  k + 36 * delta / (delta + 38)

def threshold (k bias : Nat) : Nat :=
  if k ≤ bias then 1 else if bias + 26 ≤ k then 26 else k - bias

def digit (n : Nat) : Char := if n < 26 then Char.ofNat (97 + n) else Char.ofNat (22 + n)

def value? (c : Char) : Option Nat :=
  if 'a' ≤ c ∧ c ≤ 'z' then some (c.toNat - 97)
  else if 'A' ≤ c ∧ c ≤ 'Z' then some (c.toNat - 65)
  else if '0' ≤ c ∧ c ≤ '9' then some (c.toNat - 22)
  else none

/-- A number as digits, the last of which is below its threshold. -/
def writeNumber : Nat → Nat → Nat → Nat → List Char
  | 0, _, _, _ => []
  | fuel + 1, q, k, bias =>
    let t := threshold k bias
    if q < t then [digit q]
    else digit (t + (q - t) % (base - t)) :: writeNumber fuel ((q - t) / (base - t)) (k + base) bias

/-- What is left to write: the code reached, the difference, the bias, and how many characters are
written. -/
structure Progress where
  code : Nat
  delta : Nat
  bias : Nat
  handled : Nat

/-- Writes the characters of one code point, in the order of the text. -/
def writeCode (basic m : Nat) : List Nat → Progress → List Char × Progress
  | [], p => ([], p)
  | c :: rest, p =>
    if c < m then writeCode basic m rest { p with delta := p.delta + 1 }
    else if c = m then
      let out := writeNumber 64 p.delta base p.bias
      let p := { p with
        bias := adapt p.delta (p.handled + 1) (p.handled = basic), delta := 0,
        handled := p.handled + 1 }
      let (more, p) := writeCode basic m rest p
      (out ++ more, p)
    else writeCode basic m rest p

/-- Writes the code points from the smallest to the largest. -/
def writeCodes (basic : Nat) (codes : List Nat) : Nat → Progress → List Char
  | 0, _ => []
  | fuel + 1, p =>
    match (codes.filter (p.code ≤ ·)).min? with
    | none => []
    | some m =>
      let delta := p.delta + (m - p.code) * (p.handled + 1)
      let (out, p) := writeCode basic m codes { p with delta := delta, code := m }
      out ++ writeCodes basic codes fuel { p with code := m + 1, delta := p.delta + 1 }

/-- The characters of a label as ASCII. -/
def encode (cs : List Char) : List Char :=
  let ascii := cs.filter (·.toNat < 0x80)
  let n := ascii.length
  (if n = 0 then [] else ascii ++ ['-']) ++
    writeCodes n (cs.map Char.toNat) (cs.length + 1) ⟨initialCode, 0, initialBias, n⟩

/-- A number from its digits, and the rest. -/
def readNumber : List Char → Nat → Nat → Nat → Nat → Option (Nat × List Char)
  | [], _, _, _, _ => none
  | c :: rest, i, w, k, bias => do
    let d ← value? c
    let i := i + d * w
    if maxUnsigned32 < i then none
    let t := threshold k bias
    if d < t then some (i, rest)
    else
      let w := w * (base - t)
      if maxUnsigned32 < w then none else readNumber rest i w (k + base) bias

/-- Inserts the characters that the digits denote. -/
def readCodes : Nat → List Char → Nat → Nat → Nat → List Char → Option (List Char)
  | _, [], _, _, _, out => some out
  | 0, _, _, _, _, _ => none
  | fuel + 1, cs, n, i, bias, out => do
    let (next, rest) ← readNumber cs i 1 base bias
    let count := out.length + 1
    let bias := adapt (next - i) count (i = 0)
    let n := n + next / count
    let i := next % count
    if !n.isValidChar then none
    readCodes fuel rest n (i + 1) bias (out.take i ++ Char.ofNat n :: out.drop i)

/-- The characters of a label from ASCII. No hyphen stands before a label without characters of
ASCII. -/
def decode? (cs : List Char) : Option (List Char) :=
  let tail := (cs.reverse.takeWhile (· ≠ '-')).reverse
  let head := if tail.length = cs.length then [] else cs.take (cs.length - tail.length - 1)
  if head.any (0x80 ≤ ·.toNat) || cs.head? = some '-' && head.isEmpty then none
  else readCodes cs.length tail initialCode 0 initialBias head

end ClientSession.Punycode
