import ClientSession.Text.Basic

/-!
# Tables of code points

What a standard says of each character is given on ranges of code points in ascending order, and
looked up by bisection. A table is written as words between blanks: `AD` for one code point,
`B2-B5` for a range, each in hexadecimal digits and perhaps followed by a mark and a value. A long
table is written as several texts.
-/

namespace ClientSession.Text

variable {α : Type}

/-- The element for which `place` is `.eq`, from `low` on and before `high`. Elements that stand
before it are `.lt`, elements behind it are `.gt`. -/
def bisect (xs : Array α) (place : α → Ordering) (low high : Nat) : Option α :=
  if h : low < high ∧ high ≤ xs.size then
    have inside : (low + high) / 2 < xs.size := by omega
    match place xs[(low + high) / 2] with
    | .lt => bisect xs place ((low + high) / 2 + 1) high
    | .gt => bisect xs place low ((low + high) / 2)
    | .eq => some xs[(low + high) / 2]
  else none
termination_by high - low

/-- The items that the words of texts spell. -/
def items (item? : List Char → Option α) (texts : List String) : List α :=
  texts.flatMap fun s => (runs s.toList).filterMap item?

/-- The code points from `first` to `last` and the value that they share. -/
structure CodeRange (α : Type) where
  first : Nat
  last : Nat
  value : α

/-- Where a range stands with respect to a code point. -/
def CodeRange.place (n : Nat) (r : CodeRange α) : Ordering :=
  if r.last < n then .lt else if n < r.first then .gt else .eq

/-- The first and the last code point of a written range. -/
def CodeRange.bounds? (cs : List Char) : Option (Nat × Nat) :=
  match splitOnChar '-' cs with
  | [one] => (hexNumber? one).map fun n => (n, n)
  | [first, last] => do return (← hexNumber? first, ← hexNumber? last)
  | _ => none

/-- The range that a word spells; `value?` reads what follows its bounds. -/
def CodeRange.ofChars? (value? : List Char → Option α) (word : List Char) :
    Option (CodeRange α) := do
  let (bounds, rest) := word.span fun c => c = '-' || (hexDigit? c).isSome
  let (first, last) ← bounds? bounds
  return ⟨first, last, ← value? rest⟩

/-- Ranges in ascending order, no two of which overlap. -/
structure CodeTable (α : Type) where
  ranges : Array (CodeRange α)

namespace CodeTable

/-- The range in which a character lies. -/
def find? (t : CodeTable α) (c : Char) : Option (CodeRange α) :=
  bisect t.ranges (·.place c.toNat) 0 t.ranges.size

/-- The table that texts spell; `value?` reads what follows the bounds of a range. -/
def ofTexts (value? : List Char → Option α) (texts : List String) : CodeTable α :=
  ⟨(items (CodeRange.ofChars? value?) texts).toArray⟩

end CodeTable

/-- A number behind its mark. -/
def markedNumber? (mark : Char) : List Char → Option Nat
  | c :: rest => if c = mark then hexNumber? rest else none
  | [] => none

/-- A set of characters. -/
abbrev CodeSet := CodeTable Unit

namespace CodeSet

/-- The code points alone, as nothing follows their bounds. -/
def unvalued? (rest : List Char) : Option Unit := if rest.isEmpty then some () else none

def ofTexts (texts : List String) : CodeSet := CodeTable.ofTexts unvalued? texts

def contains (s : CodeSet) (c : Char) : Bool := (CodeTable.find? s c).isSome

end CodeSet

end ClientSession.Text
