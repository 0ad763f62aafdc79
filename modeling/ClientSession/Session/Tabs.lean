import ClientSession.Storage.Vault
import ClientSession.Time.Calendar
import ClientSession.Token.Claims

/-!
# Tabs

Tabs share a backend and hear of each other's changes. Each tab has a vault of its own, a cache of
the session that the vault holds, and reactions to the end of its session. A change is heard by
every listener in the order in which they came; a tab that hears that another one removed the token
loses its session, and what it does then may make further changes, which are heard at once.

A reaction may clear the session of its tab. Each such clearing inside another one follows the
removal of a stored key, so they nest no deeper than there are stored keys.
-/

namespace ClientSession

/-- Why a session ended. -/
inductive EndReason where
  | logout
  | unauthorized
  | validationExhausted
  | expired
  /-- Another tab removed the token. -/
  | crossTab
deriving DecidableEq, Inhabited

namespace EndReason

def label : EndReason → String
  | .logout => "logout"
  | .unauthorized => "unauthorized"
  | .validationExhausted => "validation_exhausted"
  | .expired => "expired"
  | .crossTab => "cross_tab"

def all : List EndReason := [logout, unauthorized, validationExhausted, expired, crossTab]

def ofLabel? (s : String) : Option EndReason := all.find? (·.label = s)

end EndReason

/-- What a tab remembers of its session. -/
structure SessionCache where
  token : Option BearerToken
  expiresAt : Option Instant
  claims : Option Claims
deriving Inhabited

namespace SessionCache

def empty : SessionCache := ⟨none, none, none⟩

/-- The cached session lasts beyond now. -/
def isLive (c : SessionCache) (now : Instant) : Bool :=
  match c.expiresAt with
  | some t => decide (now < t)
  | none => false

def liveToken? (c : SessionCache) (now : Instant) : Option BearerToken :=
  if c.isLive now then c.token else none

def liveClaims? (c : SessionCache) (now : Instant) : Option Claims :=
  if c.isLive now then c.claims else none

end SessionCache

/-- What a tab does when its session ends. -/
inductive Reaction where
  /-- It is noted under a name. -/
  | note (name : String)
  /-- Work for the session is stopped. -/
  | stopWork
  /-- The tab clears the session that it still holds. -/
  | clear
deriving DecidableEq

structure Tab where
  vault : Vault
  refreshBuffer : Span
  cache : SessionCache
  reactions : List (Nat × Reaction)
  nextReaction : Nat
deriving Inhabited

/-- A tab that has just been opened. -/
def Tab.opened (vault : Vault) (refreshBuffer : Span) : Tab :=
  ⟨vault, refreshBuffer, .empty, [], 0⟩

/-- A change of a key by a tab; a removal has no new value. -/
structure Change where
  key : String
  newValue : Option String
  origin : Nat
deriving DecidableEq

inductive Listener where
  | tab (number : Nat)
  | note (name : String)
deriving DecidableEq

/-- What can be observed of tabs. -/
inductive Occurrence where
  | changed (change : Change)
  | heard (name key : String)
  | ended (tab : Nat) (reason : EndReason)
  | reacted (tab : Nat) (reaction : Reaction) (reason : EndReason)
deriving DecidableEq

structure Tabs where
  backend : Backend
  /-- The tabs by number; `none` stands for a closed one. -/
  slots : List (Option Tab)
  listeners : List (Nat × Listener)
  nextListener : Nat
  history : List Occurrence

namespace Tabs

/-- A backend that no tab is open over. -/
def onBackend (b : Backend) : Tabs := ⟨b, [], [], 0, []⟩

def tab? (w : Tabs) (i : Nat) : Option Tab := w.slots[i]?.join

/-- The tab of a number; a blank one stands in where there is none. -/
def tab (w : Tabs) (i : Nat) : Tab := (w.tab? i).getD default

def vault (w : Tabs) (i : Nat) : Vault := (w.tab i).vault

def cache (w : Tabs) (i : Nat) : SessionCache := (w.tab i).cache

def modifyTab (w : Tabs) (i : Nat) (f : Tab → Tab) : Tabs :=
  { w with slots := w.slots.modify i (Option.map f) }

def setCache (w : Tabs) (i : Nat) (c : SessionCache) : Tabs :=
  w.modifyTab i fun t => { t with cache := c }

/-- The tab forgets what it remembers of its session. -/
def forget (w : Tabs) (i : Nat) : Tabs := w.setCache i .empty

def note (w : Tabs) (o : Occurrence) : Tabs := { w with history := w.history ++ [o] }

def listen (w : Tabs) (l : Listener) : Nat × Tabs :=
  (w.nextListener,
    { w with listeners := w.listeners ++ [(w.nextListener, l)], nextListener := w.nextListener + 1 })

def unlisten (w : Tabs) (id : Nat) : Tabs :=
  { w with listeners := w.listeners.filter fun l => l.1 ≠ id }

/-- Opens one more tab, which listens from now on. -/
def openTab (w : Tabs) (t : Tab) : Tabs :=
  ({ w with slots := w.slots ++ [some t] }.listen (.tab w.slots.length)).2

/-- Closes a tab, which no longer listens. -/
def closeTab (w : Tabs) (i : Nat) : Tabs :=
  { w with
    slots := w.slots.set i none
    listeners := w.listeners.filter fun l => l.2 ≠ .tab i }

/-- Adds a reaction to the end of the tab's session. -/
def addReaction (w : Tabs) (i : Nat) (r : Reaction) : Nat × Tabs :=
  ((w.tab i).nextReaction, w.modifyTab i fun t =>
    { t with reactions := t.reactions ++ [(t.nextReaction, r)], nextReaction := t.nextReaction + 1 })

def removeReaction (w : Tabs) (i id : Nat) : Tabs :=
  w.modifyTab i fun t => { t with reactions := t.reactions.filter fun r => r.1 ≠ id }

/-! ## Keys of the session -/

def tokenKey : String := "auth_token"
def expiryKey : String := "auth_token_expiry"
def claimsKey : String := "auth_claims"

def sessionKeys : List String := [tokenKey, expiryKey, claimsKey]

def readKey (w : Tabs) (i : Nat) (key : String) : Option String × Tabs :=
  (((w.vault i).get key w.backend).1, { w with backend := ((w.vault i).get key w.backend).2 })

def hasKey (w : Tabs) (i : Nat) (key : String) : Bool × Tabs :=
  (((w.vault i).has key w.backend).1, { w with backend := ((w.vault i).has key w.backend).2 })

def writeKey (w : Tabs) (i : Nat) (key value : String) : Tabs :=
  { w with backend := (w.vault i).set key value w.backend }

/-! ## Changes and their consequences -/

section Consequences

-- Clears the session of a tab as the reaction to a change.
variable (clearAgain : Nat → Tabs → Tabs)

def reactWith (i : Nat) (r : Reaction) (reason : EndReason) (w : Tabs) : Tabs :=
  let w := w.note (.reacted i r reason)
  match r with
  | .clear => clearAgain i w
  | _ => w

/-- The session of a tab has ended: each of its reactions takes place. -/
def endWith (i : Nat) (reason : EndReason) (w : Tabs) : Tabs :=
  (w.tab i).reactions.foldl (fun w r => reactWith clearAgain i r.2 reason w)
    (w.note (.ended i reason))

/-- A tab hears of a change. -/
def hearWith (c : Change) (l : Listener) (w : Tabs) : Tabs :=
  match l with
  | .note name => w.note (.heard name c.key)
  | .tab j =>
    if j ≠ c.origin ∧ (w.tab? j).isSome ∧ c.key = tokenKey ∧ c.newValue = none then
      endWith clearAgain j .crossTab (w.forget j)
    else w

def publishWith (c : Change) (w : Tabs) : Tabs :=
  w.listeners.foldl (fun w l => hearWith clearAgain c l.2 w) (w.note (.changed c))

/-- Removes a key of a tab's vault; a removal that concerns a session is made known. -/
def removeWith (i : Nat) (key : String) (w : Tabs) : Tabs :=
  let r := (w.vault i).remove key w.backend
  let w := { w with backend := r.2 }
  if r.1 && Vault.concernsSession key then publishWith clearAgain ⟨key, none, i⟩ w else w

/-- Removes a key of a tab's vault if it is there. -/
def discardWith (i : Nat) (key : String) (w : Tabs) : Tabs :=
  let r := w.hasKey i key
  if r.1 then removeWith clearAgain i key r.2 else r.2

def clearWith (i : Nat) (w : Tabs) : Tabs :=
  (sessionKeys.foldl (fun w key => discardWith clearAgain i key w) w).forget i

end Consequences

/-- Clears the session of a tab, clearings inside one another at most `depth` deep. Where nothing is
stored only the cache is left to clear. -/
def clearNested : Nat → Nat → Tabs → Tabs
  | 0, i, w => w.forget i
  | depth + 1, i, w => clearWith (clearNested depth) i w

/-- The depth that clearings cannot exceed. -/
def depth (w : Tabs) : Nat := w.backend.items.entries.length

def publish (w : Tabs) (c : Change) : Tabs := publishWith (clearNested w.depth) c w

def removeKey (w : Tabs) (i : Nat) (key : String) : Tabs :=
  removeWith (clearNested w.depth) i key w

/-- Removes every key of a tab's vault. -/
def clearVault (w : Tabs) (i : Nat) : Tabs :=
  let r := (w.vault i).keys w.backend
  r.1.foldl (fun w key => w.removeKey i key) { w with backend := r.2 }

/-! ## The session of a tab -/

/-- Removes the stored session of a tab and forgets it. -/
def clearSession (w : Tabs) (i : Nat) : Tabs := clearWith (clearNested w.depth) i w

/-- Clears the session of a tab and lets its reactions take place. -/
def endSession (w : Tabs) (i : Nat) (reason : EndReason) : Tabs :=
  let w := w.clearSession i
  endWith (clearNested w.depth) i reason w

/-- The instant that a stored expiry denotes. -/
def instant? (text : String) : Option Instant :=
  (Text.integer64? (Text.trim text).toList).bind Instant.ofSeconds?

def storedExpiry (w : Tabs) (i : Nat) : Option Instant × Tabs :=
  ((w.readKey i expiryKey).1.bind instant?, (w.readKey i expiryKey).2)

/-- The expiry that a token's claims give. -/
def claimedExpiry? (token : BearerToken) : Option Instant :=
  match Claims.decode token with
  | .ok c => c.expiresAt.toOption
  | .error _ => none

def storedToken (w : Tabs) (i : Nat) : Option BearerToken × Tabs :=
  ((w.readKey i tokenKey).1.map BearerToken.mk, (w.readKey i tokenKey).2)

/-- The token of a session that lasts beyond now. -/
def token (w : Tabs) (i : Nat) (now : Instant) : Option BearerToken × Tabs :=
  match (w.cache i).liveToken? now with
  | some t => (some t, w)
  | none =>
    let stored := w.storedToken i
    match stored.1 with
    | none => (none, stored.2.forget i)
    | some t =>
      let expiry := stored.2.storedExpiry i
      match expiry.1.or (claimedExpiry? t) with
      | none => (none, expiry.2.forget i)
      | some e =>
        if e ≤ now then (none, expiry.2.forget i)
        else (some t, expiry.2.setCache i
          { expiry.2.cache i with token := some t, expiresAt := some e })

/-- Stores a token and its expiry, which its claims give unless it is given; a blank token and one
without an expiry are refused. -/
def install (w : Tabs) (i : Nat) (t : BearerToken) (expiresAt : Option Instant) : Bool × Tabs :=
  if t.isBlank then (false, w)
  else
    let claims := (Claims.decode t).toOption
    match expiresAt.or (claims.bind fun c => c.expiresAt.toOption) with
    | none => (false, w)
    | some e =>
      let w := w.writeKey i tokenKey t.text
      let w := w.writeKey i expiryKey (toString e.floorSeconds)
      let w := match claims with
        | some c => w.writeKey i claimsKey c.toJson.compact
        | none => w.removeKey i claimsKey
      (true, w.setCache i ⟨some t, some e, claims⟩)

def hasToken (w : Tabs) (i : Nat) : Bool × Tabs :=
  if (w.cache i).token.isSome then (true, w) else w.hasKey i tokenKey

/-- When the session ends: as remembered, as stored, or as the stored token claims. -/
def expiresAt (w : Tabs) (i : Nat) : Option Instant × Tabs :=
  match (w.cache i).expiresAt with
  | some t => (some t, w)
  | none =>
    let stored := w.storedExpiry i
    match stored.1 with
    | some t => (some t, stored.2)
    | none =>
      let token := stored.2.storedToken i
      (token.1.bind claimedExpiry?, token.2)

def isExpired (w : Tabs) (i : Nat) (now : Instant) : Bool × Tabs :=
  (match (w.expiresAt i).1 with
    | some t => decide (t ≤ now)
    | none => true, (w.expiresAt i).2)

/-- The session ends sooner than the refresh buffer of its tab allows. -/
def needsRefresh (w : Tabs) (i : Nat) (now : Instant) : Bool × Tabs :=
  (match (w.expiresAt i).1 with
    | some t => decide (t.since now < (w.tab i).refreshBuffer)
    | none => true, (w.expiresAt i).2)

/-- The token that is remembered, or else the one that is stored. -/
def knownToken (w : Tabs) (i : Nat) : Option BearerToken × Tabs :=
  match (w.cache i).token with
  | some t => (some t, w)
  | none => w.storedToken i

/-- The claims of a session that lasts beyond now. -/
def claims (w : Tabs) (i : Nat) (now : Instant) : Option Claims × Tabs :=
  match (w.cache i).liveClaims? now with
  | some c => (some c, w)
  | none =>
    let expiry := w.expiresAt i
    if expiry.1.any fun t => decide (t ≤ now) then (none, expiry.2.forget i)
    else
      let known := expiry.2.knownToken i
      match known.1 with
      | none => (none, known.2)
      | some t =>
        match Claims.decode t with
        | .error _ => (none, known.2.forget i)
        | .ok c =>
          if c.isExpiredAt now then (none, known.2.forget i)
          else
            let last := known.2.expiresAt i
            (some c, last.2.setCache i ⟨some t, last.1.or c.expiresAt.toOption, some c⟩)

/-- How long the claims of the session last. -/
def remaining (w : Tabs) (i : Nat) (now : Instant) : Checked (Span × Tabs) :=
  match (w.claims i now).1 with
  | none => .ok (Span.zero, (w.claims i now).2)
  | some c => do return (← c.remainingAt now, (w.claims i now).2)

def userId (w : Tabs) (i : Nat) (now : Instant) : Option String × Tabs :=
  ((w.claims i now).1.map (·.subject), (w.claims i now).2)

/-- The session of a tab in words; the token is not shown. -/
def describe (w : Tabs) (i : Nat) : String :=
  let expiry := match (w.cache i).expiresAt with
    | some t => "Some(" ++ t.describe ++ ")"
    | none => "None"
  "SessionStore \x7b cached_token: " ++ toString (w.cache i).token.isSome ++
    ", cached_expiry: " ++ expiry ++ ", refresh_buffer: " ++
    (w.tab i).refreshBuffer.describe ++ " \x7d"

/-- How many listeners there are, in words. -/
def describeListeners (count : Nat) : String :=
  "StorageBroadcast \x7b listeners: " ++ toString count ++ " \x7d"

end Tabs

end ClientSession
