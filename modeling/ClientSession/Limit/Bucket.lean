import ClientSession.Json.Decoder
import ClientSession.Time.Instant

/-!
# Token buckets

A bucket holds tokens; each call takes one. After every whole interval since the last refill the
bucket is refilled by the capacity of its limit and never above it. The instant of the last refill
moves by whole intervals only, so that the part of an interval that has passed is kept.
-/

namespace ClientSession

/-- How often an endpoint may be called: `capacity` times an interval, a caller waiting at most
once and no longer than the given time. -/
structure EndpointLimit where
  capacity : Nat
  intervalMs : Nat
  maxWaitMs : Nat
deriving DecidableEq, Inhabited

namespace EndpointLimit

/-- A limit that lets at least one call through. -/
def new (capacity intervalMs maxWaitMs : Nat) : EndpointLimit :=
  ⟨max capacity 1, intervalMs, maxWaitMs⟩

def interval (l : EndpointLimit) : Span := Span.clampedMillis l.intervalMs
def maxWait (l : EndpointLimit) : Span := Span.clampedMillis l.maxWaitMs

/-- A limit as far as it was read. -/
structure Draft where
  capacity : Option Nat
  intervalMs : Option Nat
  maxWaitMs : Option Nat

open Json in
/-- How a limit is written in JSON. -/
def shape : RecordShape Draft EndpointLimit where
  name := "EndpointLimit"
  fields := [
    .keep "capacity" false (·.capacity) (fun d v => { d with capacity := some v })
      (decodeNatural "u32" maxUnsigned32),
    .keep "intervalMs" false (·.intervalMs) (fun d v => { d with intervalMs := some v })
      (decodeNatural "u64" maxUnsigned64),
    .keep "maxWaitMs" false (·.maxWaitMs) (fun d v => { d with maxWaitMs := some v })
      (decodeNatural "u64" maxUnsigned64)]
  draft := ⟨none, none, none⟩
  finish d := do
    return ⟨← require "capacity" d.capacity, ← require "intervalMs" d.intervalMs,
      ← require "maxWaitMs" d.maxWaitMs⟩

def toJson (l : EndpointLimit) : Json :=
  .ofFields [("capacity", .ofNat l.capacity), ("intervalMs", .ofNat l.intervalMs),
    ("maxWaitMs", .ofNat l.maxWaitMs)]

end EndpointLimit

/-- The tokens of one pair of endpoint and user. -/
structure Bucket where
  tokens : Nat
  lastRefill : Instant
deriving DecidableEq, Inhabited

namespace Bucket

/-- A bucket that is first used now. -/
def full (l : EndpointLimit) (now : Instant) : Bucket := ⟨l.capacity, now⟩

/-- The bucket after the intervals that have ended by now. Without an interval every later instant
fills it up. -/
def refill (b : Bucket) (l : EndpointLimit) (now : Instant) : Bucket :=
  if now ≤ b.lastRefill then b
  else
    let interval := l.interval.wholeMillis
    if interval ≤ 0 then ⟨l.capacity, now⟩
    else
      let intervals := (now.since b.lastRefill).wholeMillis / interval
      if intervals = 0 then b
      else
        ⟨min (b.tokens + intervals.toNat * l.capacity) l.capacity,
          ⟨b.lastRefill.nanos + (Span.ofMillis (intervals * interval)).nanos⟩⟩

/-- Takes one token if there is one. -/
def take (b : Bucket) : Bool × Bucket :=
  if b.tokens = 0 then (false, b) else (true, { b with tokens := b.tokens - 1 })

/-- The time until there is a token. -/
def timeToNext (b : Bucket) (l : EndpointLimit) (now : Instant) : Checked Span :=
  if 0 < b.tokens then .ok Span.zero
  else do
    let next ← b.lastRefill.plus l.interval
    let wait := next.since now
    return if wait < Span.zero then Span.zero else wait

end Bucket

end ClientSession
