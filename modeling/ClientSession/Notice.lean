import ClientSession.Config
import ClientSession.Failure.ApiError

/-!
# Notices

Failures are made known to the user, each kind at most once in its cool-down. A notice that is held
back does not extend the cool-down.
-/

namespace ClientSession

structure Notice where
  kind : FailureKind
  message : String
deriving DecidableEq

/-- The instant of the last notice of each kind, and the notices that were shown. -/
structure NoticeGate where
  config : NotifyConfig
  last : Table FailureKind Instant
  shown : List Notice

namespace NoticeGate

def new (config : NotifyConfig) : NoticeGate := ⟨config, Table.empty, []⟩

/-- A notice of the kind was shown less than a cool-down ago. -/
def holdsBack (g : NoticeGate) (kind : FailureKind) (now : Instant) : Bool :=
  (g.last.find? kind).any fun t => decide (now.since t < g.config.cooldown kind)

/-- Shows a notice unless it is held back; whether it was shown. -/
def notify (g : NoticeGate) (n : Notice) (now : Instant) : Bool × NoticeGate :=
  if g.holdsBack n.kind now then (false, g)
  else (true, { g with last := g.last.insert n.kind now, shown := g.shown ++ [n] })

/-- Shows what the user is told about a failure. -/
def notifyError (g : NoticeGate) (e : ApiError) (now : Instant) : Bool × NoticeGate :=
  g.notify ⟨e.kind, e.userMessage⟩ now

def reset (g : NoticeGate) : NoticeGate := { g with last := Table.empty }

/-- The gate in words. -/
def describe (g : NoticeGate) : String :=
  "NotificationGate \x7b config: " ++ g.config.describe ++ " \x7d"

end NoticeGate

end ClientSession
