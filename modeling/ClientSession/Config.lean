import ClientSession.Failure.Kind
import ClientSession.Http.Base
import ClientSession.Limit.Bucket
import ClientSession.Text.Basic

/-!
# Configuration

A configuration names the base of the service; each of its sections has defaults. It is read from
a JSON document and written as one.
-/

namespace ClientSession

/-- Why there is no configuration. -/
inductive ConfigError where
  | badBaseUrl (value : String)
  | badDocument (message : String)
  | missingSetting (name : String)
deriving DecidableEq

def ConfigError.message : ConfigError → String
  | .badBaseUrl value => "API base URL `" ++ value ++ "` is invalid."
  | .badDocument message => "Configuration document is invalid: " ++ message
  | .missingSetting name => "Required setting `" ++ name ++ "` is missing."

/-- The largest unsigned 64-bit integer. -/
def maxCount64 : Nat := maxUnsigned64

open Json

/-- A field of a section: a count with a default. -/
def countField {δ : Type} (name expected : String) (get : δ → Option Nat)
    (set : δ → Nat → δ) : FieldShape δ :=
  .keep name true get set (decodeNatural expected maxCount64)

/-! ## Sections -/

/-- When tokens are renewed and when a session ends. -/
structure SessionConfig where
  refreshBufferSecs : Nat
  refreshCheckIntervalSecs : Nat
  timeoutFallbackSecs : Nat
deriving DecidableEq

namespace SessionConfig

instance : Inhabited SessionConfig := ⟨⟨300, 60, 3600⟩⟩

/-- A token that lives no longer than this is due for renewal. -/
def refreshBuffer (c : SessionConfig) : Span := .clampedSeconds c.refreshBufferSecs
def refreshCheckInterval (c : SessionConfig) : Span := .clampedSeconds c.refreshCheckIntervalSecs
/-- When a session of unknown lifetime ends. -/
def timeoutFallback (c : SessionConfig) : Span := .clampedSeconds c.timeoutFallbackSecs

structure Draft where
  refreshBufferSecs : Option Nat
  refreshCheckIntervalSecs : Option Nat
  timeoutFallbackSecs : Option Nat

def shape : RecordShape Draft SessionConfig where
  name := "SessionConfig"
  fields := [
    countField "refreshBufferSecs" "u64" (·.refreshBufferSecs)
      (fun d v => { d with refreshBufferSecs := some v }),
    countField "refreshCheckIntervalSecs" "u64" (·.refreshCheckIntervalSecs)
      (fun d v => { d with refreshCheckIntervalSecs := some v }),
    countField "timeoutFallbackSecs" "u64" (·.timeoutFallbackSecs)
      (fun d v => { d with timeoutFallbackSecs := some v })]
  draft := ⟨none, none, none⟩
  finish d :=
    let std : SessionConfig := default
    .ok ⟨d.refreshBufferSecs.getD std.refreshBufferSecs,
      d.refreshCheckIntervalSecs.getD std.refreshCheckIntervalSecs,
      d.timeoutFallbackSecs.getD std.timeoutFallbackSecs⟩

def toJson (c : SessionConfig) : Json :=
  .object [("refreshBufferSecs", .ofNat c.refreshBufferSecs),
    ("refreshCheckIntervalSecs", .ofNat c.refreshCheckIntervalSecs),
    ("timeoutFallbackSecs", .ofNat c.timeoutFallbackSecs)]

/-- The settings in words. -/
def describe (c : SessionConfig) : String :=
  "SessionConfig \x7b refresh_buffer_secs: " ++ toString c.refreshBufferSecs ++
    ", refresh_check_interval_secs: " ++ toString c.refreshCheckIntervalSecs ++
    ", timeout_fallback_secs: " ++ toString c.timeoutFallbackSecs ++ " \x7d"

end SessionConfig

/-- How events are gathered and sent. -/
structure BatcherConfig where
  authFlushIntervalSecs : Nat
  authBatchSize : Nat
  requestMaxQueue : Nat
  dedupWindowMs : Nat
  minSendIntervalSecs : Nat
  /-- Paths whose calls are not recorded. -/
  excludedEndpoints : List String
deriving DecidableEq

namespace BatcherConfig

instance : Inhabited BatcherConfig := ⟨⟨60, 10, 50, 2000, 30, ["/metrics/request", "/health"]⟩⟩

def authFlushInterval (c : BatcherConfig) : Span := .clampedSeconds c.authFlushIntervalSecs
/-- A repetition within this time is dropped. -/
def dedupWindow (c : BatcherConfig) : Span := .clampedMillis c.dedupWindowMs
def minSendInterval (c : BatcherConfig) : Span := .clampedSeconds c.minSendIntervalSecs

structure Draft where
  authFlushIntervalSecs : Option Nat
  authBatchSize : Option Nat
  requestMaxQueue : Option Nat
  dedupWindowMs : Option Nat
  minSendIntervalSecs : Option Nat
  excludedEndpoints : Option (List String)

def shape : RecordShape Draft BatcherConfig where
  name := "BatcherConfig"
  fields := [
    countField "authFlushIntervalSecs" "u64" (·.authFlushIntervalSecs)
      (fun d v => { d with authFlushIntervalSecs := some v }),
    countField "authBatchSize" "usize" (·.authBatchSize)
      (fun d v => { d with authBatchSize := some v }),
    countField "requestMaxQueue" "usize" (·.requestMaxQueue)
      (fun d v => { d with requestMaxQueue := some v }),
    countField "dedupWindowMs" "u64" (·.dedupWindowMs)
      (fun d v => { d with dedupWindowMs := some v }),
    countField "minSendIntervalSecs" "u64" (·.minSendIntervalSecs)
      (fun d v => { d with minSendIntervalSecs := some v }),
    .keep "excludedEndpoints" true (·.excludedEndpoints)
      (fun d v => { d with excludedEndpoints := some v }) (decodeList decodeString)]
  draft := ⟨none, none, none, none, none, none⟩
  finish d :=
    let std : BatcherConfig := default
    .ok ⟨d.authFlushIntervalSecs.getD std.authFlushIntervalSecs,
      d.authBatchSize.getD std.authBatchSize, d.requestMaxQueue.getD std.requestMaxQueue,
      d.dedupWindowMs.getD std.dedupWindowMs, d.minSendIntervalSecs.getD std.minSendIntervalSecs,
      d.excludedEndpoints.getD std.excludedEndpoints⟩

def toJson (c : BatcherConfig) : Json :=
  .object [("authFlushIntervalSecs", .ofNat c.authFlushIntervalSecs),
    ("authBatchSize", .ofNat c.authBatchSize), ("requestMaxQueue", .ofNat c.requestMaxQueue),
    ("dedupWindowMs", .ofNat c.dedupWindowMs),
    ("minSendIntervalSecs", .ofNat c.minSendIntervalSecs),
    ("excludedEndpoints", .array (c.excludedEndpoints.map .string))]

end BatcherConfig

/-- How often the user is told about failures of one kind. -/
structure NotifyConfig where
  defaultCooldownSecs : Nat
  cooldownOverrides : Table FailureKind Nat
deriving DecidableEq

namespace NotifyConfig

instance : Inhabited NotifyConfig := ⟨⟨30, Table.empty.insert .auth 300⟩⟩

/-- The time in which no second notice of a kind is shown. -/
def cooldown (c : NotifyConfig) (kind : FailureKind) : Span :=
  .clampedSeconds ((c.cooldownOverrides.find? kind).getD c.defaultCooldownSecs)

structure Draft where
  defaultCooldownSecs : Option Nat
  cooldownOverrides : Option (Table FailureKind Nat)

/-- Keys that are kinds of failure; the parts they lead to have no names. -/
def kindKeys : KeyShape FailureKind where
  meaning s := match FailureKind.ofLabel? s with
    | some k => .ok k
    | none => .error (.unknownVariant s (FailureKind.all.map FailureKind.label))
  part _ := .unnamed

def shape : RecordShape Draft NotifyConfig where
  name := "NotifyConfig"
  fields := [
    countField "defaultCooldownSecs" "u64" (·.defaultCooldownSecs)
      (fun d v => { d with defaultCooldownSecs := some v }),
    .keep "cooldownOverrides" true (·.cooldownOverrides)
      (fun d v => { d with cooldownOverrides := some v })
      (decodeTable kindKeys (decodeNatural "u64" maxCount64))]
  draft := ⟨none, none⟩
  finish d :=
    let std : NotifyConfig := default
    .ok ⟨d.defaultCooldownSecs.getD std.defaultCooldownSecs,
      d.cooldownOverrides.getD std.cooldownOverrides⟩

def toJson (c : NotifyConfig) : Json :=
  .object [("defaultCooldownSecs", .ofNat c.defaultCooldownSecs),
    ("cooldownOverrides",
      .object (c.cooldownOverrides.entries.map fun e => (e.1.label, .ofNat e.2)))]

/-- The settings in words. -/
def describe (c : NotifyConfig) : String :=
  "NotifyConfig \x7b default_cooldown_secs: " ++ toString c.defaultCooldownSecs ++
    ", cooldown_overrides: \x7b" ++
    ", ".intercalate (c.cooldownOverrides.entries.map fun e => e.1.word ++ ": " ++ toString e.2) ++
    "\x7d \x7d"

end NotifyConfig

/-- The identity provider's settings, which are not interpreted. -/
structure IdentityConfig where
  domain : String
  clientId : String
  audience : String
deriving DecidableEq

namespace IdentityConfig

structure Draft where
  domain : Option String
  clientId : Option String
  audience : Option String

def shape : RecordShape Draft IdentityConfig where
  name := "IdentityConfig"
  fields := [
    .keep "domain" false (·.domain) (fun d v => { d with domain := some v }) decodeString,
    .keep "clientId" false (·.clientId) (fun d v => { d with clientId := some v }) decodeString,
    .keep "audience" false (·.audience) (fun d v => { d with audience := some v }) decodeString]
  draft := ⟨none, none, none⟩
  finish d := do
    return ⟨← require "domain" d.domain, ← require "clientId" d.clientId,
      ← require "audience" d.audience⟩

def toJson (c : IdentityConfig) : Json :=
  .object [("domain", .string c.domain), ("clientId", .string c.clientId),
    ("audience", .string c.audience)]

/-- A setting that is present and not blank, without blanks at its ends. -/
def setting (lookup : String → Option String) (name : String) : Except ConfigError String :=
  match (lookup name).map Text.trim with
  | some value => if value.isEmpty then .error (.missingSetting name) else .ok value
  | none => .error (.missingSetting name)

/-- The settings from an environment. -/
def ofEnvironment (lookup : String → Option String) : Except ConfigError IdentityConfig := do
  return ⟨← setting lookup "IDENTITY_DOMAIN", ← setting lookup "IDENTITY_CLIENT_ID",
    ← setting lookup "IDENTITY_AUDIENCE"⟩

end IdentityConfig

/-! ## The whole configuration -/

structure Config where
  base : Url
  storageNamespace : String
  session : SessionConfig
  batcher : BatcherConfig
  notify : NotifyConfig
  rateLimits : Table String EndpointLimit
  identity : Option IdentityConfig
deriving DecidableEq

namespace Config

def defaultNamespace : String := "secure_"

structure Draft where
  base : Option Url
  storageNamespace : Option String
  session : Option SessionConfig
  batcher : Option BatcherConfig
  notify : Option NotifyConfig
  rateLimits : Option (Table String EndpointLimit)
  identity : Option (Option IdentityConfig)

/-- A text that is a URL of its own. -/
def decodeUrl : Decoder Url :=
  decodeText "a string representing an URL" fun s => match Url.parse s with
    | .ok u => .ok u
    | .error e => .error (.refused (e.message ++ ": " ++ Text.quoted s))

def shape : RecordShape Draft Config where
  name := "GatewayConfig"
  fields := [
    .keep "apiBase" false (·.base) (fun d v => { d with base := some v }) decodeUrl,
    .keep "storageNamespace" true (·.storageNamespace)
      (fun d v => { d with storageNamespace := some v }) decodeString,
    .keep "session" true (·.session) (fun d v => { d with session := some v })
      SessionConfig.shape.decode,
    .keep "batcher" true (·.batcher) (fun d v => { d with batcher := some v })
      BatcherConfig.shape.decode,
    .keep "notify" true (·.notify) (fun d v => { d with notify := some v })
      NotifyConfig.shape.decode,
    .keep "rateLimits" true (·.rateLimits) (fun d v => { d with rateLimits := some v })
      (decodeTable textKeys EndpointLimit.shape.decode),
    .keep "identity" true (·.identity) (fun d v => { d with identity := some v })
      (decodeOption IdentityConfig.shape.decode)]
  draft := ⟨none, none, none, none, none, none, none⟩
  finish d := do
    return ⟨← require "apiBase" d.base, d.storageNamespace.getD defaultNamespace,
      d.session.getD default, d.batcher.getD default, d.notify.getD default,
      d.rateLimits.getD Table.empty, d.identity.getD none⟩

/-- The configuration with a base that serves requests. -/
def withBase (c : Config) (u : Url) : Except ConfigError Config :=
  match u.asBase? with
  | some base => .ok { c with base := base }
  | none => .error (.badBaseUrl u.text)

/-- The configuration with default sections. -/
def ofUrl (u : Url) : Except ConfigError Config :=
  withBase ⟨u, defaultNamespace, default, default, default, Table.empty, none⟩ u

/-- The configuration with default sections for a base given as text. -/
def ofBaseText (text : String) : Except ConfigError Config :=
  match Url.parse text with
  | .ok u => ofUrl u
  | .error _ => .error (.badBaseUrl text)

/-- The configuration that a document starts with. -/
def ofJson (text : String) : Except ConfigError Config :=
  match decodeFirst shape.decode text.toList with
  | .ok c => c.withBase c.base
  | .error issue => .error (.badDocument (issue.locatedMessage text.toList))

def toJson (c : Config) : Json :=
  .object ([("apiBase", .string c.base.text), ("storageNamespace", .string c.storageNamespace),
    ("session", c.session.toJson), ("batcher", c.batcher.toJson), ("notify", c.notify.toJson),
    ("rateLimits", .object (c.rateLimits.entries.map fun e => (e.1, e.2.toJson)))] ++
    (c.identity.map fun i => ("identity", i.toJson)).toList)

/-- Adds a limit, or replaces the one of the same endpoint. -/
def withRateLimit (c : Config) (endpoint : String) (l : EndpointLimit) : Config :=
  { c with rateLimits := c.rateLimits.insert endpoint l }

end Config

end ClientSession
