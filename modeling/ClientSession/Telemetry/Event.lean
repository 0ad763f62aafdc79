import ClientSession.Json.Decoder
import ClientSession.Json.Printer
import ClientSession.Time.Rfc3339

/-!
# Events and batches

An event records what happened to a session or a call. Events travel in batches; the JSON form of
a batch exists when the timestamps of its events have an RFC 3339 form.
-/

namespace ClientSession

inductive EventKind where
  | auth | api | page
deriving DecidableEq, Inhabited

namespace EventKind

def label : EventKind → String
  | .auth => "auth"
  | .api => "api"
  | .page => "page"

def all : List EventKind := [auth, api, page]

def ofLabel? (s : String) : Option EventKind := all.find? (·.label = s)

end EventKind

structure Event where
  kind : EventKind
  /-- The name of a session event, the address of a call. -/
  name : String
  method : Option String
  status : Option Nat
  durationMs : Nat
  timestamp : Stamp
  success : Bool
  error : Option String
  userId : Option String
  tags : Table String String
deriving DecidableEq, Inhabited

namespace Event

/-- Something that happened to a session. -/
def auth (name : String) (success : Bool) (now : Instant) : Event where
  kind := .auth
  name := name
  method := none
  status := none
  durationMs := 0
  timestamp := .universal now
  success := success
  error := none
  userId := none
  tags := Table.empty

/-- Milliseconds that fit an unsigned 64-bit count; others count as none. -/
def durationCount (d : Span) : Nat :=
  if 0 ≤ d.wholeMillis ∧ d.wholeMillis ≤ maxUnsigned64 then d.wholeMillis.toNat else 0

/-- What became of a call. -/
def request (method url : String) (status : Option Nat) (duration : Span) (now : Instant) :
    Event where
  kind := .api
  name := url
  method := some method
  status := status
  durationMs := durationCount duration
  timestamp := .universal now
  success := match status with
    | some s => 200 ≤ s && s < 300
    | none => false
  error := none
  userId := none
  tags := Table.empty

/-- The event as a failure. -/
def withError (e : Event) (error : String) : Event :=
  { e with success := false, error := some error }

def withUser (e : Event) (user : String) : Event := { e with userId := some user }

def withTag (e : Event) (key value : String) : Event :=
  { e with tags := e.tags.insert key value }

/-- Two events with one key are repetitions of one another. -/
def dedupKey (e : Event) : String := e.method.getD "-" ++ " " ++ e.name

/-- The JSON form of an event, if its timestamp has a text. -/
def toJson? (e : Event) : Option Json :=
  (Rfc3339.write? e.timestamp).map fun timestamp =>
    .object ([("type", .string e.kind.label), ("name", .string e.name)] ++
      (e.method.map fun m => ("method", Json.string m)).toList ++
      (e.status.map fun s => ("status", Json.ofNat s)).toList ++
      [("durationMs", .ofNat e.durationMs), ("timestamp", .string timestamp),
        ("success", .bool e.success)] ++
      (e.error.map fun s => ("error", Json.string s)).toList ++
      (e.userId.map fun s => ("userId", Json.string s)).toList ++
      (if e.tags.isEmpty then []
        else [("tags", .object (e.tags.entries.map fun t => (t.1, .string t.2)))]))

/-- An event as far as it was read. -/
structure Draft where
  kind : Option EventKind
  name : Option String
  method : Option (Option String)
  status : Option (Option Nat)
  durationMs : Option Nat
  timestamp : Option Stamp
  success : Option Bool
  error : Option (Option String)
  userId : Option (Option String)
  tags : Option (Table String String)

open Json in
def decodeLabel : Decoder EventKind :=
  decodeText "variant identifier" fun s => match EventKind.ofLabel? s with
    | some k => .ok k
    | none => .error (.unknownVariant s (EventKind.all.map EventKind.label))

open Json in
/-- A kind is its label, or an object whose one field is named by the label and is null. -/
def decodeKind : Decoder EventKind := fun depth cs =>
  match skipSpace cs with
  | [] => .error (malformedHere .endInValue [])
  | c :: rest =>
    if c = '"' then decodeLabel depth (c :: rest)
    else if c = '\x7b' then
      if depth ≤ 1 then .error (malformedAhead .tooDeep (c :: rest)) else do
        let (k, rest) ← decodeLabel (depth - 1) rest
        let rest ← readColon rest
        let ((), rest) ← decodeNull (depth - 1) rest
        match skipSpace rest with
        | [] => throw (malformedHere .endInObject [])
        | d :: rest =>
          if d = '\x7d' then return (k, rest) else throw (malformedHere .valueExpected (d :: rest))
    else .error (malformedAhead .valueExpected (c :: rest))

open Json in
def decodeStamp : Decoder Stamp :=
  decodeText "an RFC3339-formatted `OffsetDateTime`" fun s => match Rfc3339.read? s with
    | some t => .ok t
    | none => .error (.refused "the text is not an RFC 3339 timestamp")

open Json in
def shape : RecordShape Draft Event where
  name := "MetricEvent"
  fields := [
    .keep "type" false (·.kind) (fun d v => { d with kind := some v }) decodeKind,
    .keep "name" false (·.name) (fun d v => { d with name := some v }) decodeString,
    .keep "method" true (·.method) (fun d v => { d with method := some v })
      (decodeOption decodeString),
    .keep "status" true (·.status) (fun d v => { d with status := some v })
      (decodeOption (decodeNatural "u16" maxUnsigned16)),
    .keep "durationMs" false (·.durationMs) (fun d v => { d with durationMs := some v })
      (decodeNatural "u64" maxUnsigned64),
    .keep "timestamp" false (·.timestamp) (fun d v => { d with timestamp := some v })
      decodeStamp,
    .keep "success" false (·.success) (fun d v => { d with success := some v }) decodeBool,
    .keep "error" true (·.error) (fun d v => { d with error := some v })
      (decodeOption decodeString),
    .keep "userId" true (·.userId) (fun d v => { d with userId := some v })
      (decodeOption decodeString),
    .keep "tags" true (·.tags) (fun d v => { d with tags := some v })
      (decodeTable textKeys decodeString)]
  draft := ⟨none, none, none, none, none, none, none, none, none, none⟩
  finish d := do
    return ⟨← require "type" d.kind, ← require "name" d.name, d.method.getD none,
      d.status.getD none, ← require "durationMs" d.durationMs, ← require "timestamp" d.timestamp,
      ← require "success" d.success, d.error.getD none, d.userId.getD none,
      d.tags.getD Table.empty⟩

/-- The event that a text denotes. -/
def read? (text : String) : Option Event := (Json.decodeWhole shape.decode text).toOption

/-- Two events are alike when all their parts are, the timestamps as instants. -/
def Alike (a b : Event) : Prop :=
  { a with timestamp := .universal a.timestamp.instant } =
    { b with timestamp := .universal b.timestamp.instant }

instance (a b : Event) : Decidable (Alike a b) := inferInstanceAs (Decidable (_ = _))

end Event

/-- Events that travel together. -/
structure Batch where
  id : String
  events : List Event
deriving DecidableEq, Inhabited

namespace Batch

/-- The eight lower-case hexadecimal digits of a 32-bit number. -/
def hex8 (n : Nat) : String :=
  String.ofList ((List.range 8).map fun i => Json.hexDigit (n / Nat.pow 16 (7 - i) % 16))

/-- A batch named after the instant and a number that tells batches of one instant apart. -/
def new (events : List Event) (now : Instant) (nonce : Nat) : Batch :=
  ⟨"batch_" ++ toString now.wholeMillis ++ "_" ++ hex8 nonce, events⟩

/-- The JSON form of a batch, if each of its events has one. -/
def toJson? (b : Batch) : Option Json :=
  (b.events.mapM Event.toJson?).map fun events =>
    .object [("batchId", .string b.id), ("metrics", .array events)]

/-- A batch as far as it was read. -/
structure Draft where
  id : Option String
  events : Option (List Event)

open Json in
def shape : RecordShape Draft Batch where
  name := "MetricBatch"
  fields := [
    .keep "batchId" false (·.id) (fun d v => { d with id := some v }) decodeString,
    .keep "metrics" false (·.events) (fun d v => { d with events := some v })
      (decodeList Event.shape.decode)]
  draft := ⟨none, none⟩
  finish d := do return ⟨← require "batchId" d.id, ← require "metrics" d.events⟩

/-- The batch that a text denotes. -/
def read? (text : String) : Option Batch := (Json.decodeWhole shape.decode text).toOption

end Batch

end ClientSession
