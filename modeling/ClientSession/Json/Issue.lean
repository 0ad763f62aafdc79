import ClientSession.Text.Quoted

/-!
# What can be wrong with a JSON document

A document is malformed, or well formed and not of the expected shape. An issue says what is
wrong, where, and in which part of the document. Places are counted in lines from one and, within
the line, in UTF-8 bytes that were read or looked at.
-/

namespace ClientSession.Json

/-- A part of the grammar that the document breaks. -/
inductive Malformation where
  | endInList | endInObject | endInString | endInValue
  | colonExpected | listContinuation | objectContinuation | wordExpected | valueExpected
  | badEscape | badNumber | numberTooLarge | loneSurrogate | hexEscapeEnd
  | controlCharacter | keyNotText | trailingComma | trailingCharacters | tooDeep
deriving DecidableEq

def Malformation.message : Malformation → String
  | .endInList => "EOF while parsing a list"
  | .endInObject => "EOF while parsing an object"
  | .endInString => "EOF while parsing a string"
  | .endInValue => "EOF while parsing a value"
  | .colonExpected => "expected `:`"
  | .listContinuation => "expected `,` or `]`"
  | .objectContinuation => "expected `,` or `\x7d`"
  | .wordExpected => "expected ident"
  | .valueExpected => "expected value"
  | .badEscape => "invalid escape"
  | .badNumber => "invalid number"
  | .numberTooLarge => "number out of range"
  | .loneSurrogate => "lone leading surrogate in hex escape"
  | .hexEscapeEnd => "unexpected end of hex escape"
  | .controlCharacter => "control character (\\u0000-\\u001F) found while parsing a string"
  | .keyNotText => "key must be a string"
  | .trailingComma => "trailing comma"
  | .trailingCharacters => "trailing characters"
  | .tooDeep => "recursion limit exceeded"

/-- What stood in the place of something else. -/
inductive Found where
  | null
  | bool (b : Bool)
  | integer (n : Int)
  | double (bits : UInt64)
  | text (s : String)
  | sequence
  | map
deriving DecidableEq

def Found.describe : Found → String
  | .null => "null"
  | .bool b => "boolean `" ++ (if b then "true" else "false") ++ "`"
  | .integer n => "integer `" ++ toString n ++ "`"
  | .double bits => "floating point `" ++ doubleText bits ++ "`"
  | .text s => "string " ++ Text.quoted s
  | .sequence => "sequence"
  | .map => "map"

def Found.ofNumber : JsonNumber → Found
  | .natural n => .integer n
  | .negative n => .integer (-(n : Int))
  | .double bits => .double bits

/-- What is wrong. -/
inductive Cause where
  | malformed (m : Malformation)
  /-- A value of another kind. -/
  | wrongKind (found : Found) (expected : String)
  /-- A value of the right kind that is out of range. -/
  | wrongValue (found : Found) (expected : String)
  | missingField (name : String)
  | duplicateField (name : String)
  | unknownVariant (name : String) (choices : List String)
  | wrongLength (length : Nat) (expected : String)
  /-- A text that does not denote what it should, in words. -/
  | refused (message : String)
deriving DecidableEq

def Cause.message : Cause → String
  | .malformed m => m.message
  | .wrongKind found expected => "invalid type: " ++ found.describe ++ ", expected " ++ expected
  | .wrongValue found expected => "invalid value: " ++ found.describe ++ ", expected " ++ expected
  | .missingField name => "missing field `" ++ name ++ "`"
  | .duplicateField name => "duplicate field `" ++ name ++ "`"
  | .unknownVariant name choices =>
    "unknown variant `" ++ name ++ "`, expected one of " ++
      ", ".intercalate (choices.map fun c => "`" ++ c ++ "`")
  | .wrongLength length expected =>
    "invalid length " ++ toString length ++ ", expected " ++ expected
  | .refused message => message

/-- One step from a container to a part of it. -/
inductive Segment where
  | field (name : String)
  | item (index : Nat)
  /-- A part whose key is not known. -/
  | unnamed
deriving DecidableEq

/-- What is wrong, in which part, and where: `rest` was not yet read, and the place is `ahead`
bytes into it. -/
structure Issue where
  cause : Cause
  rest : List Char
  ahead : Nat
  path : List Segment
deriving DecidableEq

/-- The issue at the first unread character. -/
def Issue.here (cause : Cause) (rest : List Char) : Issue := ⟨cause, rest, 0, []⟩

/-- The issue just behind the first unread character's first byte, or at the end. -/
def Issue.ahead1 (cause : Cause) (rest : List Char) : Issue :=
  ⟨cause, rest, if rest.isEmpty then 0 else 1, []⟩

/-- The issue seen from the container of the part it was found in. -/
def Issue.within (i : Issue) (s : Segment) : Issue := { i with path := s :: i.path }

/-- The number of bytes of a text. -/
def byteCount (cs : List Char) : Nat := cs.foldl (fun n c => n + c.utf8Size) 0

/-- Line and column after `count` bytes of a text. -/
def place (text : List Char) (count : Nat) : Nat × Nat :=
  let rec go : List Char → Nat → Nat → Nat → Nat × Nat
    | [], n, line, column => (line, column + n)
    | c :: cs, n, line, column =>
      if n < c.utf8Size then (line, column + n)
      else if c = '\n' then go cs (n - 1) (line + 1) 0
      else go cs (n - c.utf8Size) line (column + c.utf8Size)
  go text count 1 0

/-- The issue in words, without the part. -/
def Issue.message (text : List Char) (i : Issue) : String :=
  let count := byteCount text - byteCount i.rest + i.ahead
  let (line, column) := place text (min count (byteCount text))
  i.cause.message ++ " at line " ++ toString line ++ " column " ++ toString column

/-- A path in words: names joined by dots, indices in brackets, a question mark for a part without
a name. -/
def pathText : List Segment → String
  | [] => "."
  | s :: more =>
    let first := match s with
      | .field name => name
      | .item index => "[" ++ toString index ++ "]"
      | .unnamed => "?"
    first ++ String.join (more.map fun
      | .field name => "." ++ name
      | .item index => "[" ++ toString index ++ "]"
      | .unnamed => ".?")

/-- The issue in words, after the part it is in when that part has a name. -/
def Issue.locatedMessage (text : List Char) (i : Issue) : String :=
  if i.path.all (· == .unnamed) then i.message text
  else pathText i.path ++ ": " ++ i.message text

end ClientSession.Json
