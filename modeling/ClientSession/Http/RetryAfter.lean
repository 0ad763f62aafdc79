import ClientSession.Bounds
import ClientSession.Http.Message
import ClientSession.Text.Basic
import ClientSession.Time.Rfc2822

/-!
# The Retry-After header

Its value is a count of seconds or a date; a date that has passed gives no wait.
-/

namespace ClientSession

/-- The wait that a header value asks for at an instant. -/
def retryAfter? (raw : String) (now : Instant) : Option Span :=
  let text := Text.trim raw
  match Text.natural? maxUnsigned32 text.toList with
  | some seconds => some (Span.ofSeconds seconds)
  | none =>
    match Rfc2822.read? text with
    | some stamp =>
      let wait := stamp.instant.since now
      if wait.isPositive then some wait else none
    | none => none

def Response.retryAfter? (r : Response) (now : Instant) : Option Span :=
  (r.header? "retry-after").bind (ClientSession.retryAfter? · now)

end ClientSession
