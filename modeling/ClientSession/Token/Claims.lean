import ClientSession.Bytes.Base64
import ClientSession.Bytes.Utf8
import ClientSession.Json.Decoder
import ClientSession.Text.Basic
import ClientSession.Time.Instant
import ClientSession.Token.Bearer

/-!
# Claims

The middle one of a token's three segments holds claims as JSON, in the URL alphabet of Base64.
The subject and the expiry are required; claims without a field of their own are kept as they are.
Reading a token checks no signature.
-/

namespace ClientSession

/-- Why a token has no claims. -/
inductive ClaimsError where
  /-- The token does not have three segments. -/
  | malformed
  | badEncoding
  | badJson
  /-- The expiry is no instant of the calendar. -/
  | expiryOutOfRange
deriving DecidableEq

def ClaimsError.message : ClaimsError → String
  | .malformed => "Token is not a three-segment bearer token."
  | .badEncoding => "Token payload is not valid base64url."
  | .badJson => "Token payload is not valid claims JSON."
  | .expiryOutOfRange => "Token expiry claim is out of range."

/-- For whom a token is meant. -/
inductive Audience where
  | one (name : String)
  | many (names : List String)
deriving DecidableEq, Inhabited

namespace Audience

def contains (a : Audience) (name : String) : Bool :=
  match a with
  | .one n => n = name
  | .many ns => ns.contains name

/-- The audience that a JSON value denotes: a text, or an array of texts. -/
def ofJson? : Json → Option Audience
  | .string s => some (.one s)
  | .array items => (items.mapM Json.text?).map .many
  | _ => none

def toJson : Audience → Json
  | .one s => .string s
  | .many ns => .array (ns.map .string)

end Audience

/-- The claims of a token. Times are in seconds since the epoch. -/
structure Claims where
  subject : String
  expiry : Int
  issuedAt : Option Int
  issuer : Option String
  audience : Audience
  /-- The claims without a field of their own, in the order of their names. -/
  others : Table String Json

namespace Claims

/-- Claims as far as they were read. -/
structure Draft where
  subject : Option String
  expiry : Option Int
  issuedAt : Option (Option Int)
  issuer : Option (Option String)
  audience : Option Audience
  others : Table String Json

/-- An audience; a value that is neither a text nor an array of texts is refused. -/
def decodeAudience : Json.Decoder Audience := fun depth cs => do
  let (v, rest) ← Json.decodeAny depth cs
  match Audience.ofJson? v with
  | some a => return (a, rest)
  | none => throw (.here (.refused "data did not match any variant of untagged enum Audience") rest)

open Json in
def shape : RecordShape Draft Claims where
  name := "Claims"
  fields := [
    .keep "sub" false (·.subject) (fun d v => { d with subject := some v }) decodeString,
    .keep "exp" false (·.expiry) (fun d v => { d with expiry := some v }) decodeInteger,
    .keep "iat" true (·.issuedAt) (fun d v => { d with issuedAt := some v })
      (decodeOption decodeInteger),
    .keep "iss" true (·.issuer) (fun d v => { d with issuer := some v })
      (decodeOption decodeString),
    .keep "aud" true (·.audience) (fun d v => { d with audience := some v }) decodeAudience]
  draft := ⟨none, none, none, none, none, Table.empty⟩
  finish d := do
    return ⟨← require "sub" d.subject, ← require "exp" d.expiry, d.issuedAt.getD none,
      d.issuer.getD none, d.audience.getD (.many []), d.others⟩

/-- Keeps a claim without a field of its own. -/
def keepOther (name : String) (d : Draft) : Json.Decoder Draft := fun depth cs => do
  let (v, rest) ← Json.decodeAny depth cs
  return ({ d with others := d.others.insert name v }, rest)

/-- The parts of a text between dots. -/
def segments (cs : List Char) : List (List Char) := cs.splitOn '.'

/-- The claims of a token. What follows the JSON value of the payload is not read. -/
def decode (token : BearerToken) : Except ClaimsError Claims :=
  match segments token.text.toList with
  | [_, payload, _] =>
    match Base64.decodeUnpadded? Base64.urlSafe (Text.trimEnd (· = '=') payload) with
    | none => .error .badEncoding
    | some bytes =>
      match Json.decodeFirst (shape.decodeOpen keepOther) (Utf8.leadingChars bytes) with
      | .ok claims => .ok claims
      | .error _ => .error .badJson
  | _ => .error .malformed

/-- The expiry as an instant. -/
def expiresAt (c : Claims) : Except ClaimsError Instant :=
  match Instant.ofSeconds? c.expiry with
  | some t => .ok t
  | none => .error .expiryOutOfRange

def isExpiredAt (c : Claims) (now : Instant) : Bool := c.expiry ≤ now.floorSeconds

/-- A difference of 64-bit counts of seconds. -/
def secondsBetween (later earlier : Int) : Checked Int :=
  let d := later - earlier
  if -(maxSigned64 : Int) - 1 ≤ d ∧ d ≤ maxSigned64 then .ok d else .error .overflow

/-- The whole seconds before the expiry, none when it has passed. -/
def remainingAt (c : Claims) (now : Instant) : Checked Span := do
  let left ← secondsBetween c.expiry now.floorSeconds
  return Span.ofSeconds (max left 0)

/-- The part of a claim's name behind the last slash. -/
def plainName (name : String) : String :=
  String.ofList (name.toList.reverse.takeWhile (· ≠ '/')).reverse

/-- The claim of a name, or else the first one whose plain name it is. -/
def other? (c : Claims) (name : String) : Option Json :=
  match c.others.find? name with
  | some v => some v
  | none => (c.others.entries.find? fun e => plainName e.1 = name).map (·.2)

def otherText? (c : Claims) (name : String) : Option String :=
  (c.other? name).bind Json.text?

/-- The texts of an array, or the words of a text. -/
def otherTexts (c : Claims) (name : String) : List String :=
  match c.other? name with
  | some (.array items) => items.filterMap Json.text?
  | some (.string s) => Text.words s
  | _ => []

def email? (c : Claims) : Option String := c.otherText? "email"
def roles (c : Claims) : List String := c.otherTexts "roles"
def permissions (c : Claims) : List String := c.otherTexts "permissions"
def tenant? (c : Claims) : Option String := c.otherText? "tenant"

def organization? (c : Claims) : Option String :=
  ((c.other? "org_id").orElse fun _ => c.other? "organization").bind Json.text?

/-- The claims as one JSON object, those without a field of their own last. -/
def toJson (c : Claims) : Json :=
  .object ([("sub", .string c.subject), ("exp", .ofInt c.expiry)] ++
    (c.issuedAt.map fun t => ("iat", Json.ofInt t)).toList ++
    (c.issuer.map fun s => ("iss", Json.string s)).toList ++
    [("aud", c.audience.toJson)] ++ c.others.entries)

end Claims

end ClientSession
