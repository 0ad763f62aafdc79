import ClientSession.Device
import ClientSession.Http.Message
import ClientSession.Text.Basic
import ClientSession.Time.Rfc3339

/-!
# Headers of every request

Each request is marked with the instant it started at and carries hardening headers, the
fingerprint of the device, an id of its own, a timestamp and, when it may change something and a
token against forgery is known, that token.
-/

namespace ClientSession

namespace SecurityHeaders

/-- Marks the start of a request, in milliseconds since the epoch. -/
def start : String := "x-request-start"
def fingerprint : String := "x-device-fingerprint"
def requestId : String := "x-request-id"
def timestamp : String := "x-request-timestamp"
def csrf : String := "x-csrf-token"
/-- In a refusal: the permission that the call needs. -/
def requiredPermission : String := "x-required-permission"

def hardening : List (String × String) :=
  [("x-content-type-options", "nosniff"), ("x-frame-options", "DENY"),
    ("x-xss-protection", "1; mode=block"), ("referrer-policy", "strict-origin-when-cross-origin")]

/-- The thirty-two lower-case hexadecimal digits of a number of 128 bits. -/
def idText (nonce : Nat) : String :=
  String.ofList ((List.range 32).map fun i => Json.hexDigit (nonce / Nat.pow 16 (31 - i) % 16))

/-- The instant as RFC 3339 text, or its seconds where it has none. -/
def timestampText (now : Instant) : String :=
  (Rfc3339.write? (.universal now)).getD (toString now.floorSeconds)

end SecurityHeaders

open SecurityHeaders in
/-- The request with the headers that every request carries. The nonce tells requests apart; an
empty token against forgery counts as none. -/
def Request.secure (r : Request) (profile : DeviceProfile) (csrfToken : Option String)
    (now : Instant) (nonce : Nat) : Request :=
  let r := hardening.foldl (fun r h => r.setHeader h.1 h.2) r
  let r := r.setHeader fingerprint profile.fingerprint
  let r := r.setHeader requestId (idText nonce)
  let r := r.setHeader timestamp (timestampText now)
  match csrfToken with
  | some token => if r.method.isReadOnly || token.isEmpty then r else r.setHeader csrf token
  | none => r

/-- Marks the start of the request. -/
def Request.stampStart (r : Request) (now : Instant) : Request :=
  r.setHeader SecurityHeaders.start (toString now.wholeMillis)

/-- An integer of 128 signed bits with an optional sign. -/
def integer128? (cs : List Char) : Option Int :=
  let (negative, digits) := match cs with
    | '-' :: rest => (true, rest)
    | '+' :: rest => (false, rest)
    | _ => (false, cs)
  if digits.isEmpty then none else
    match Text.digits? digits with
    | none => none
    | some n =>
      if negative then if n ≤ maxSigned128 + 1 then some (-(n : Int)) else none
      else if n ≤ maxSigned128 then some n else none

/-- The time since the mark of the start, in milliseconds; `none` without a readable mark. -/
def Request.elapsed (r : Request) (now : Instant) : Checked (Option Span) :=
  match (r.header? SecurityHeaders.start).bind fun s => integer128? s.toList with
  | none => .ok none
  | some started =>
    let passed := now.wholeMillis - started
    if -(maxSigned128 : Int) - 1 ≤ passed ∧ passed ≤ maxSigned128 then
      .ok (some (Span.ofMillis (min (max passed 0) Span.maxCount)))
    else .error .overflow

end ClientSession
