import ClientSession.Failure.Kind
import ClientSession.Json.Decoder
import ClientSession.Time.Span

/-!
# Retry policies

The delay before a retry doubles with each retry up to a ceiling; a random part of limited size
may be added. `maxRetries` counts the attempts after the first.
-/

namespace ClientSession

structure RetryPolicy where
  baseDelayMs : Nat
  maxDelayMs : Nat
  maxRetries : Nat
  jitterMs : Nat
deriving DecidableEq, Inhabited

namespace RetryPolicy

/-- The policy of ordinary calls. -/
def generic : RetryPolicy := ⟨1000, 5000, 2, 0⟩

/-- The policy of checking a token with the server. -/
def tokenValidation : RetryPolicy := ⟨1000, 10000, 2, 1000⟩

/-- The largest unsigned 64-bit integer. -/
def maxWord : Nat := maxUnsigned64

/-- The power of two before retry number `retry`; past 64 bits it stays at the largest word. -/
def factor (retry : Nat) : Nat := if retry < 64 then Nat.pow 2 retry else maxWord

/-- The fixed part of the delay before retry number `retry`, counted from zero. -/
def backoff (p : RetryPolicy) (retry : Nat) : Span :=
  Span.clampedMillis (min (min (p.baseDelayMs * factor retry) maxWord) p.maxDelayMs)

/-- The delay before a retry when the random part is `jitter` milliseconds. A random part that
does not fit 63 bits counts as none. -/
def delay (p : RetryPolicy) (retry jitter : Nat) : Checked Span :=
  (p.backoff retry).plus (Span.ofMillis (if jitter ≤ Span.maxCount then jitter else 0))

def hasRetriesLeft (p : RetryPolicy) (done : Nat) : Bool := done < p.maxRetries

/-- Another attempt is made after a failure of a kind. -/
def shouldRetry (p : RetryPolicy) (done : Nat) (kind : FailureKind) : Bool :=
  p.hasRetriesLeft done && kind.isRetryable

/-- A policy as far as it was read. -/
structure Draft where
  baseDelayMs : Option Nat
  maxDelayMs : Option Nat
  maxRetries : Option Nat
  jitterMs : Option Nat

open Json in
/-- How a policy is written in JSON. -/
def shape : RecordShape Draft RetryPolicy where
  name := "RetryPolicy"
  fields := [
    .keep "baseDelayMs" false (·.baseDelayMs) (fun d v => { d with baseDelayMs := some v })
      (decodeNatural "u64" maxWord),
    .keep "maxDelayMs" false (·.maxDelayMs) (fun d v => { d with maxDelayMs := some v })
      (decodeNatural "u64" maxWord),
    .keep "maxRetries" false (·.maxRetries) (fun d v => { d with maxRetries := some v })
      (decodeNatural "u32" maxUnsigned32),
    .keep "jitterMs" false (·.jitterMs) (fun d v => { d with jitterMs := some v })
      (decodeNatural "u64" maxWord)]
  draft := ⟨none, none, none, none⟩
  finish d := do
    return ⟨← require "baseDelayMs" d.baseDelayMs, ← require "maxDelayMs" d.maxDelayMs,
      ← require "maxRetries" d.maxRetries, ← require "jitterMs" d.jitterMs⟩

def toJson (p : RetryPolicy) : Json :=
  .ofFields [("baseDelayMs", .ofNat p.baseDelayMs), ("maxDelayMs", .ofNat p.maxDelayMs),
    ("maxRetries", .ofNat p.maxRetries), ("jitterMs", .ofNat p.jitterMs)]

/-- The policy in words. -/
def describe (p : RetryPolicy) : String :=
  "RetryPolicy \x7b base_delay_ms: " ++ toString p.baseDelayMs ++ ", max_delay_ms: " ++
    toString p.maxDelayMs ++ ", max_retries: " ++ toString p.maxRetries ++ ", jitter_ms: " ++
    toString p.jitterMs ++ " \x7d"

end RetryPolicy

end ClientSession
