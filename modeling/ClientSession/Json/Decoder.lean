import ClientSession.Json.Reader
import ClientSession.Table

/-!
# Reading values of a known shape

A decoder reads a value of one type from JSON text. The decoders of records, lists and tables say
in which part of the document an issue lies. A record is read from an object, where fields may be
in any order and unknown ones are passed over, or from an array of its fields in order.
-/

namespace ClientSession.Json

/-- Reads a value; arrays and objects in it may nest less deep than the given number. -/
abbrev Decoder (α : Type) := Nat → List Char → Except Issue (α × List Char)

/-- The value of a whole text: nothing but blanks may surround it. -/
def decodeWhole {α : Type} (decode : Decoder α) (text : String) : Except Issue α := do
  let (v, rest) ← decode maxDepth text.toList
  readEnd rest
  return v

/-- The value at the start of a text; what follows it is not read. -/
def decodeFirst {α : Type} (decode : Decoder α) (text : List Char) : Except Issue α := do
  let (v, _) ← decode maxDepth text
  return v

/-- The issue that a value starting with `c` is not what was expected. -/
def wrongKind (expected : String) (c : Char) (rest : List Char) : Issue :=
  let describe {α : Type} (found : α → Found) : Except Issue (α × List Char) → Issue
    | .ok (v, rest) => .here (.wrongKind (found v) expected) rest
    | .error i => i
  if c = 'n' then describe (fun () => Found.null) ((readWord "ull".toList rest).map ((), ·))
  else if c = 't' then describe Found.bool ((readWord "rue".toList rest).map (true, ·))
  else if c = 'f' then describe Found.bool ((readWord "alse".toList rest).map (false, ·))
  else if c = '-' then describe Found.ofNumber (readNumber false rest)
  else if isDigit c then describe Found.ofNumber (readNumber true (c :: rest))
  else if c = '"' then describe Found.text (readString rest)
  else if c = '[' then .here (.wrongKind .sequence expected) (c :: rest)
  else if c = '\x7b' then .here (.wrongKind .map expected) (c :: rest)
  else malformedAhead .valueExpected (c :: rest)

/-! ## Atoms -/

/-- A string, in the words `expected`, with a meaning. -/
def decodeText {α : Type} (expected : String) (meaning : String → Except Cause α) : Decoder α :=
  fun _ cs =>
    match skipSpace cs with
    | [] => .error (malformedHere .endInValue [])
    | c :: rest =>
      if c = '"' then do
        let (s, rest) ← readString rest
        match meaning s with
        | .ok v => return (v, rest)
        | .error cause => throw (.here cause rest)
      else .error (wrongKind expected c rest)

def decodeString : Decoder String := decodeText "a string" .ok

/-- A number with a meaning. -/
def decodeNumber {α : Type} (expected : String) (meaning : JsonNumber → Except Cause α) :
    Decoder α :=
  fun _ cs =>
    match skipSpace cs with
    | [] => .error (malformedHere .endInValue [])
    | c :: rest => do
      let (n, rest) ←
        if c = '-' then readNumber false rest
        else if isDigit c then readNumber true (c :: rest)
        else throw (wrongKind expected c rest)
      match meaning n with
      | .ok v => return (v, rest)
      | .error cause => throw (.here cause rest)

/-- An integer from zero to `bound`. -/
def decodeNatural (expected : String) (bound : Nat) : Decoder Nat :=
  decodeNumber expected fun
    | .natural n => if n ≤ bound then .ok n else .error (.wrongValue (.integer n) expected)
    | .negative n => .error (.wrongValue (.integer (-(n : Int))) expected)
    | .double bits => .error (.wrongKind (.double bits) expected)

/-- An integer of 64 signed bits. -/
def decodeInteger : Decoder Int :=
  decodeNumber "i64" fun
    | .natural n =>
      if n ≤ maxSigned64 then .ok (n : Int) else .error (.wrongValue (.integer n) "i64")
    | .negative n => .ok (-(n : Int))
    | .double bits => .error (.wrongKind (.double bits) "i64")

def decodeBool : Decoder Bool := fun _ cs =>
  match skipSpace cs with
  | [] => .error (malformedHere .endInValue [])
  | c :: rest =>
    if c = 't' then return (true, ← readWord "rue".toList rest)
    else if c = 'f' then return (false, ← readWord "alse".toList rest)
    else .error (wrongKind "a boolean" c rest)

def decodeNull : Decoder Unit := fun _ cs =>
  match skipSpace cs with
  | [] => .error (malformedHere .endInValue [])
  | c :: rest =>
    if c = 'n' then return ((), ← readWord "ull".toList rest)
    else .error (wrongKind "unit" c rest)

/-- A value of the type, or null. -/
def decodeOption {α : Type} (decode : Decoder α) : Decoder (Option α) := fun depth cs =>
  match skipSpace cs with
  | 'n' :: rest => return (none, ← readWord "ull".toList rest)
  | cs => do
    let (v, rest) ← decode depth cs
    return (some v, rest)

/-- Any value. -/
def decodeAny : Decoder Json := readValue

/-! ## Containers -/

/-- The issue seen from the container of the part it was found in. -/
def inPart {α : Type} (s : Segment) (r : Except Issue α) : Except Issue α :=
  r.mapError (·.within s)

/-- The end of an object as far as it can be passed over. -/
def afterObject (cs : List Char) : List Char :=
  match skipSpace cs with
  | '\x7d' :: rest => rest
  | rest => rest

/-- The end of an array as far as it can be passed over. -/
def afterList (cs : List Char) : List Char :=
  match skipSpace cs with
  | ']' :: rest => rest
  | ',' :: rest => skipSpace rest
  | rest => rest

/-- The items of an array up to its bracket, each in its part of the document. -/
def decodeItems {α : Type} (item : List Char → Except Issue (α × List Char)) :
    Nat → Nat → List Char → Except Issue (List α × List Char)
  | 0, _, cs => .error (malformedHere .endInList cs)
  | fuel + 1, index, cs => do
    match ← nextItem (index = 0) cs with
    | (false, rest) => return ([], rest)
    | (true, rest) =>
      let (v, rest) ← inPart (.item index) (item rest)
      let (vs, rest) ← decodeItems item fuel (index + 1) rest
      return (v :: vs, rest)

/-- An array of values of one type. -/
def decodeList {α : Type} (decode : Decoder α) : Decoder (List α) := fun depth cs =>
  match skipSpace cs with
  | [] => .error (malformedHere .endInValue [])
  | c :: rest =>
    if c = '[' then
      if depth ≤ 1 then .error (malformedAhead .tooDeep (c :: rest)) else do
        let (vs, rest) ← decodeItems (decode (depth - 1)) (rest.length + 1) 0 rest
        return (vs, ← closeList rest)
    else .error (wrongKind "a sequence" c rest)

/-- How the keys of a table are read, and which part of the document a key names. -/
structure KeyShape (κ : Type) where
  meaning : String → Except Cause κ
  part : String → Segment

/-- A key and the colon behind it. -/
def decodeKey {κ : Type} (shape : KeyShape κ) (cs : List Char) :
    Except Issue (κ × Segment × List Char) := do
  let (k, rest) ← inPart .unnamed (readString (cs.drop 1))
  match shape.meaning k with
  | .error cause => inPart .unnamed (throw (.here cause rest))
  | .ok key => return (key, shape.part k, ← readColon rest)

/-- The entries of an object up to its brace. -/
def decodeEntries {κ α : Type} (shape : KeyShape κ)
    (value : List Char → Except Issue (α × List Char)) :
    Nat → Bool → List Char → Except Issue (List (κ × α) × List Char)
  | 0, _, cs => .error (malformedHere .endInObject cs)
  | fuel + 1, first, cs => do
    match ← inPart .unnamed (nextField first cs) with
    | (false, rest) => return ([], rest)
    | (true, rest) =>
      let (k, part, rest) ← decodeKey shape rest
      let (v, rest) ← inPart part (value rest)
      let (es, rest) ← decodeEntries shape value fuel false rest
      return ((k, v) :: es, rest)

/-- A table; of several entries with one key the last stays. -/
def decodeTable {κ α : Type} [KeyOrder κ] (shape : KeyShape κ) (decode : Decoder α) :
    Decoder (Table κ α) := fun depth cs =>
  match skipSpace cs with
  | [] => .error (malformedHere .endInValue [])
  | c :: rest =>
    if c = '\x7b' then
      if depth ≤ 1 then .error (malformedAhead .tooDeep (c :: rest)) else do
        let (es, rest) ← decodeEntries shape (decode (depth - 1)) (rest.length + 1) true rest
        return (Table.ofList es, ← closeObject rest)
    else .error (wrongKind "a map" c rest)

/-- Keys that are any text. -/
def textKeys : KeyShape String := ⟨.ok, .field⟩

/-! ## Records -/

/-- One field of a record whose parts are gathered in a draft. -/
structure FieldShape (δ : Type) where
  name : String
  /-- The record is complete without the field. -/
  optional : Bool
  /-- The draft has the field already. -/
  present : δ → Bool
  /-- Reads the field's value into the draft. -/
  read : δ → Decoder δ

/-- What a record is read from: its name, its fields in order, the draft to start with, and the
record of a finished draft, or the name of the first required field that is missing. -/
structure RecordShape (δ α : Type) where
  name : String
  fields : List (FieldShape δ)
  draft : δ
  finish : δ → Except String α

namespace RecordShape

variable {δ α : Type}

def expected (shape : RecordShape δ α) : String := "struct " ++ shape.name

def expectedLength (shape : RecordShape δ α) : String :=
  shape.expected ++ " with " ++ toString shape.fields.length ++
    (if shape.fields.length = 1 then " element" else " elements")

/-- The fields of an object, up to its brace, taken into the draft. An unknown field goes to
`other` with its key. -/
def readFields (shape : RecordShape δ α) (other : String → δ → Decoder δ) (depth : Nat) :
    Nat → Bool → δ → List Char → Except Issue (δ × List Char)
  | 0, _, _, cs => .error (malformedHere .endInObject cs)
  | fuel + 1, first, draft, cs => do
    match ← inPart .unnamed (nextField first cs) with
    | (false, rest) => return (draft, rest)
    | (true, rest) =>
      let (k, rest) ← inPart .unnamed (readString (rest.drop 1))
      match shape.fields.find? (·.name = k) with
      | some field =>
        if field.present draft then throw (.here (.duplicateField k) (afterObject rest))
        let rest ← readColon rest
        let (draft, rest) ← inPart (.field k) (field.read draft depth rest)
        shape.readFields other depth fuel false draft rest
      | none =>
        let rest ← readColon rest
        let (draft, rest) ← inPart (.field k) (other k draft depth rest)
        shape.readFields other depth fuel false draft rest

/-- The items of an array taken as the fields in order; a missing one ends the array. -/
def readItems (depth : Nat) (tooShort : Nat → Cause) :
    List (FieldShape δ) → Nat → δ → List Char → Except Issue (δ × List Char)
  | [], _, draft, cs => .ok (draft, cs)
  | field :: fields, index, draft, cs => do
    match ← nextItem (index = 0) cs with
    | (false, rest) =>
      if (field :: fields).all (·.optional) then return (draft, rest)
      let missing := (field :: fields).takeWhile (·.optional)
      throw (.here (tooShort (index + missing.length)) (afterList rest))
    | (true, rest) =>
      let (draft, rest) ← inPart (.item index) (field.read draft depth rest)
      readItems depth tooShort fields (index + 1) draft rest

/-- The record of a draft read up to the brace of its object. -/
def finishObject (shape : RecordShape δ α) (draft : δ) (cs : List Char) :
    Except Issue (α × List Char) :=
  match shape.finish draft with
  | .ok v => return (v, ← closeObject cs)
  | .error name => throw (.here (.missingField name) (afterObject cs))

/-- A record from an object; `other` says what becomes of unknown fields. -/
def decodeObject (shape : RecordShape δ α) (other : String → δ → Decoder δ) (depth : Nat)
    (c : Char) (rest : List Char) : Except Issue (α × List Char) :=
  if depth ≤ 1 then .error (malformedAhead .tooDeep (c :: rest)) else do
    let (draft, rest) ←
      shape.readFields other (depth - 1) (rest.length + 1) true shape.draft rest
    shape.finishObject draft rest

/-- Passes over the value of an unknown field. -/
def ignore (_ : String) (draft : δ) : Decoder δ := fun _ cs => return (draft, ← skipValue cs)

/-- A record from an object or an array. -/
def decode (shape : RecordShape δ α) : Decoder α := fun depth cs =>
  match skipSpace cs with
  | [] => .error (malformedHere .endInValue [])
  | c :: rest =>
    if c = '\x7b' then shape.decodeObject ignore depth c rest
    else if c = '[' then
      if depth ≤ 1 then .error (malformedAhead .tooDeep (c :: rest)) else do
        let tooShort := fun n => Cause.wrongLength n shape.expectedLength
        let (draft, rest) ← readItems (depth - 1) tooShort shape.fields 0 shape.draft rest
        match shape.finish draft with
        | .ok v => return (v, ← closeList rest)
        | .error name => throw (.here (.missingField name) (afterList rest))
    else .error (wrongKind shape.expected c rest)

/-- A record from an object, whose unknown fields `other` takes into the draft. -/
def decodeOpen (shape : RecordShape δ α) (other : String → δ → Decoder δ) : Decoder α :=
  fun depth cs =>
    match skipSpace cs with
    | [] => .error (malformedHere .endInValue [])
    | c :: rest =>
      if c = '\x7b' then shape.decodeObject other depth c rest
      else .error (wrongKind shape.expected c rest)

end RecordShape

/-- A required part of a draft. -/
def require {α : Type} (name : String) : Option α → Except String α
  | some v => .ok v
  | none => .error name

/-- A field whose value is kept in a draft. -/
def FieldShape.keep {δ β : Type} (name : String) (optional : Bool) (get : δ → Option β)
    (set : δ → β → δ) (decode : Decoder β) : FieldShape δ where
  name := name
  optional := optional
  present draft := (get draft).isSome
  read draft depth cs := do
    let (v, rest) ← decode depth cs
    return (set draft v, rest)

end ClientSession.Json
