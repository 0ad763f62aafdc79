import ClientSession.Client.State

/-!
# Keeping a session alive

The refresh timer renews the token before it expires, and the expiry timer ends the session when
it has expired. One refresh takes place at a time; a refresh that finds the session fresh does
nothing unless it is forced.
-/

namespace ClientSession

namespace Client

/-- The answer to a refresh: whether a token was stored. -/
abbrev RefreshResult := Except IssueFailure Bool

def unusable : IssueFailure := .unavailable "issued token carries no usable expiry"

/-- Asks for a new token and stores it. -/
def renewToken : Activity Client (Except IssueFailure Unit) := do
  match ← fetchToken (← get).supervisor.supply with
  | .error e => return .error e
  | .ok issued =>
    let stored ← Activity.step fun _ c =>
      let r := c.tabs.install c.own issued.token issued.expiresAt
      (r.1, c.setTabs r.2)
    return if stored then .ok () else .error unusable

def countRefresh (o : Outcome) : Activity Client Unit := modify (·.mapSupervisor (·.count o))

/-- Renews the token for the holder of the turn. -/
def refreshInTurn (force : Bool) : Activity Client RefreshResult := do
  if !force && !(← onTab Tabs.needsRefresh) then return .ok false
  countRefresh .attempt
  match ← renewToken with
  | .ok () =>
    countRefresh .success
    Activity.change fun now c => c.trackAuth (Event.auth "token_refreshed" true now)
    modify (·.mapSupervisor (·.armTimeout))
    return .ok true
  | .error e =>
    countRefresh .failure
    Activity.change fun now c =>
      c.trackAuth ((Event.auth "token_refreshed" false now).withError e.message)
    return .error e

def mapTurn (c : Client) (f : Turn → Turn) : Client :=
  c.mapSupervisor fun s => { s with turn := f s.turn }

def giveBackTurn (c : Client) : Client := c.mapTurn Turn.giveBack

def takeTurn : Activity Client Unit :=
  Turn.take.within (·.supervisor.turn) fun c t => c.mapTurn fun _ => t

/-- Renews the token, if it is forced or the session needs it, when its turn has come. -/
def refresh (force : Bool) : Activity Client RefreshResult := do
  takeTurn
  let r ← (refreshInTurn force).guarded giveBackTurn
  modify giveBackTurn
  return r

/-- How long the expiry timer sleeps. -/
def timeToExpiry (w : Tabs) (i : Nat) (now : Instant) (fallback : Span) : Span × Tabs :=
  (match (w.expiresAt i).1 with
    | some t => t.since now
    | none => fallback, (w.expiresAt i).2)

/-- Carries out work beside the callers, up to the point at which it ends or starts over. -/
def watch : WatchJob → Activity Client (Option WatchJob)
  | .refreshTimer task => do
    Activity.sleep (← get).supervisor.config.refreshCheckInterval
    if ← onTab fun w i _ => w.hasToken i then
      let _ ← refresh false
    return some (.refreshTimer task)
  | .expiryTimer task => do
    let fallback := (← get).supervisor.config.timeoutFallback
    Activity.sleep (← onTab fun w i now => timeToExpiry w i now fallback)
    let now ← Activity.now
    if (← onTab fun w i _ => w.expiresAt i).any fun t => decide (now < t) then
      return some (.expiryTimer task)
    else
      modify fun c => c.mapTabs (·.endSession c.own .expired)
      modify (·.mapSupervisor fun s =>
        if s.expiryTask = some task then { s with expiryTask := none } else s)
      return none

end Client

namespace Supervisor

def describe (s : Supervisor) : String :=
  "SessionSupervisor \x7b config: " ++ s.config.describe ++ ", running: " ++
    toString s.isRunning ++ ", timeout_armed: " ++ toString s.hasTimeout ++ " \x7d"

end Supervisor

end ClientSession
