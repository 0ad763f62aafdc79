import ClientSession.Json.Scan

/-!
# Reading JSON values

`readValue` reads one value and leaves the rest of the text; arrays and objects nest to a limited
depth. `skipValue` passes over a value of any depth and is laxer inside strings and numbers.
`parse?` reads a text that holds one value and blanks.
-/

namespace ClientSession.Json

/-- How deep arrays and objects may nest, plus one. -/
def maxDepth : Nat := 128

/-! ## The glue of arrays and objects -/

/-- Whether an array has another item, and the text at that item or at the bracket. -/
def nextItem (first : Bool) (cs : List Char) : Except Issue (Bool × List Char) :=
  match skipSpace cs with
  | [] => .error (malformedHere .endInList [])
  | c :: rest =>
    if c = ']' then .ok (false, c :: rest)
    else if first then .ok (true, c :: rest)
    else if c = ',' then
      match skipSpace rest with
      | [] => .error (malformedHere .endInValue [])
      | d :: rest =>
        if d = ']' then .error (malformedAhead .trailingComma (d :: rest))
        else .ok (true, d :: rest)
    else .error (malformedAhead .listContinuation (c :: rest))

/-- Whether an object has another field, and the text at its key or at the brace. -/
def nextField (first : Bool) (cs : List Char) : Except Issue (Bool × List Char) :=
  match skipSpace cs with
  | [] => .error (malformedHere .endInObject [])
  | c :: rest =>
    if c = '\x7d' then .ok (false, c :: rest)
    else if first then
      if c = '"' then .ok (true, c :: rest)
      else .error (malformedAhead .keyNotText (c :: rest))
    else if c = ',' then
      match skipSpace rest with
      | [] => .error (malformedHere .endInValue [])
      | d :: rest =>
        if d = '"' then .ok (true, d :: rest)
        else if d = '\x7d' then .error (malformedAhead .trailingComma (d :: rest))
        else .error (malformedAhead .keyNotText (d :: rest))
    else .error (malformedAhead .objectContinuation (c :: rest))

/-- Passes over the colon between a key and its value. -/
def readColon (cs : List Char) : Except Issue (List Char) :=
  match skipSpace cs with
  | [] => .error (malformedHere .endInObject [])
  | c :: rest => if c = ':' then .ok rest else .error (malformedAhead .colonExpected (c :: rest))

/-- Passes over the bracket that ends an array. -/
def closeList (cs : List Char) : Except Issue (List Char) :=
  match skipSpace cs with
  | [] => .error (malformedHere .endInList [])
  | c :: rest =>
    if c = ']' then .ok rest
    else if c = ',' then
      let after := skipSpace rest
      if after.head? = some ']' then .error (malformedAhead .trailingComma after)
      else .error (malformedAhead .trailingCharacters after)
    else .error (malformedAhead .trailingCharacters (c :: rest))

/-- Passes over the brace that ends an object. -/
def closeObject (cs : List Char) : Except Issue (List Char) :=
  match skipSpace cs with
  | [] => .error (malformedHere .endInObject [])
  | c :: rest =>
    if c = '\x7d' then .ok rest
    else if c = ',' then .error (malformedAhead .trailingComma (c :: rest))
    else .error (malformedAhead .trailingCharacters (c :: rest))

/-! ## Values -/

/-- The items of an array up to its bracket. -/
def readItems {α : Type} (item : List Char → Reading α) :
    Nat → Bool → List Char → Except Issue (List α × List Char)
  | 0, _, cs => .error (malformedHere .endInList cs)
  | fuel + 1, first, cs => do
    match ← nextItem first cs with
    | (false, rest) => return ([], rest)
    | (true, rest) =>
      let (v, rest) ← item rest
      let (vs, rest) ← readItems item fuel false rest
      return (v :: vs, rest)

/-- The fields of an object up to its brace, in the order of the text. -/
def readFields {α : Type} (value : List Char → Reading α) :
    Nat → Bool → List Char → Except Issue (List (String × α) × List Char)
  | 0, _, cs => .error (malformedHere .endInObject cs)
  | fuel + 1, first, cs => do
    match ← nextField first cs with
    | (false, rest) => return ([], rest)
    | (true, rest) =>
      let (k, rest) ← readString (rest.drop 1)
      let rest ← readColon rest
      let (v, rest) ← value rest
      let (fs, rest) ← readFields value fuel false rest
      return ((k, v) :: fs, rest)

/-- One value. -/
def readValue : Nat → List Char → Except Issue (Json × List Char)
  | 0, cs => .error (malformedAhead .tooDeep cs)
  | depth + 1, cs =>
    match skipSpace cs with
    | [] => .error (malformedHere .endInValue [])
    | c :: rest =>
      if c = 'n' then return (.null, ← readWord "ull".toList rest)
      else if c = 't' then return (.bool true, ← readWord "rue".toList rest)
      else if c = 'f' then return (.bool false, ← readWord "alse".toList rest)
      else if c = '-' then do
        let (n, rest) ← readNumber false rest
        return (.number n, rest)
      else if isDigit c then do
        let (n, rest) ← readNumber true (c :: rest)
        return (.number n, rest)
      else if c = '"' then do
        let (s, rest) ← readString rest
        return (.string s, rest)
      else if c = '[' then
        if depth = 0 then .error (malformedAhead .tooDeep (c :: rest)) else do
          let (vs, rest) ← readItems (readValue depth) (rest.length + 1) true rest
          return (.array vs, ← closeList rest)
      else if c = '\x7b' then
        if depth = 0 then .error (malformedAhead .tooDeep (c :: rest)) else do
          let (fs, rest) ← readFields (readValue depth) (rest.length + 1) true rest
          return (ofFields fs, ← closeObject rest)
      else .error (malformedAhead .valueExpected (c :: rest))

/-- Nothing but blanks follows. -/
def readEnd (cs : List Char) : Except Issue Unit :=
  match skipSpace cs with
  | [] => .ok ()
  | c :: rest => .error (malformedAhead .trailingCharacters (c :: rest))

/-- The value that a text holds, if it holds one. -/
def parse? (text : String) : Option Json :=
  match readValue maxDepth text.toList with
  | .ok (v, rest) => if (skipSpace rest).isEmpty then some v else none
  | .error _ => none

/-! ## Passing over values -/

/-- What a pass over a value is inside of. -/
inductive Frame where
  | list | object
deriving DecidableEq

/-- What a pass over a value expects next: a value, or, inside `frames`, what may follow one. -/
inductive Skipping where
  | value
  | after (comma : Bool)
deriving DecidableEq

/-- Passes over a key and its colon when the innermost frame is an object. -/
def skipKey : List Frame → List Char → Except Issue (List Char)
  | .object :: _, cs =>
    match skipSpace cs with
    | [] => .error (malformedHere .endInObject [])
    | c :: rest =>
      if c = '"' then do
        let rest ← skipChars (rest.length + 1) rest
        readColon rest
      else .error (malformedAhead .keyNotText (c :: rest))
  | _, cs => .ok cs

/-- Passes over the rest of a value that is inside `frames`. -/
def skipInside : Nat → Skipping → List Frame → List Char → Except Issue (List Char)
  | 0, _, _, cs => .error (malformedHere .endInValue cs)
  | fuel + 1, .value, frames, cs =>
    match skipSpace cs with
    | [] => .error (malformedHere .endInValue [])
    | c :: rest => do
      if c = '[' then skipInside fuel (.after false) (.list :: frames) rest
      else if c = '\x7b' then skipInside fuel (.after false) (.object :: frames) rest
      else
        let rest ←
          if c = 'n' then readWord "ull".toList rest
          else if c = 't' then readWord "rue".toList rest
          else if c = 'f' then readWord "alse".toList rest
          else if c = '-' then skipNumber rest
          else if isDigit c then skipNumber (c :: rest)
          else if c = '"' then skipChars (rest.length + 1) rest
          else throw (malformedAhead .valueExpected (c :: rest))
        skipInside fuel (.after true) frames rest
  | _ + 1, .after _, [], cs => .ok cs
  | fuel + 1, .after comma, frame :: frames, cs =>
    match skipSpace cs with
    | [] => .error (malformedHere (match frame with
        | .list => .endInList
        | .object => .endInObject) [])
    | c :: rest => do
      if comma && c = ',' then
        skipInside fuel .value (frame :: frames) (← skipKey (frame :: frames) rest)
      else if (frame = .list && c = ']') || (frame = .object && c = '\x7d') then
        skipInside fuel (.after true) frames rest
      else if comma then
        throw (malformedAhead (match frame with
          | .list => .listContinuation
          | .object => .objectContinuation) (c :: rest))
      else skipInside fuel .value (frame :: frames) (← skipKey (frame :: frames) (c :: rest))

/-- Passes over one value. -/
def skipValue (cs : List Char) : Except Issue (List Char) :=
  skipInside (2 * cs.length + 2) .value [] cs

end ClientSession.Json
