import ClientSession.Bytes.Base64
import ClientSession.Bytes.Sha256
import ClientSession.Bytes.Utf8
import ClientSession.Json.Value
import ClientSession.Text.Basic
import ClientSession.Text.Quoted

/-!
# Device profiles

Four signals describe a device. A key derived from them veils stored texts: the bytes of the text
are combined with a stream of digests of the key. This hides a text from a casual look and from
nothing more. A sealed text starts with a mark, so that an unsealed one is recognised.
-/

namespace ClientSession

structure DeviceProfile where
  userAgent : String
  locale : String
  screen : String
  origin : String
deriving DecidableEq, Inhabited

/-- Why a text cannot be sealed or opened. -/
inductive SealError where
  /-- The profile has no signal to derive a key from. -/
  | keyUnavailable
  /-- The text has the mark but was not sealed. -/
  | badEncoding
deriving DecidableEq

def SealError.message : SealError → String
  | .keyUnavailable => "Device profile carries no signals; key material is unavailable."
  | .badEncoding => "Stored value is not a valid obfuscated payload."

/-- The mark of a sealed text. -/
def sealMark : List Char := ['v', '1', ':']

/-- Block `i` of the stream of a key. -/
def streamBlock (key : List UInt8) (i : Nat) : List UInt8 :=
  Sha256.digest (key ++ (List.range 8).map fun j => UInt8.ofNat (i / Nat.pow 256 (7 - j)))

/-- The first bytes of the stream of a key, from block `i` on. -/
def stream (key : List UInt8) : Nat → Nat → List UInt8
  | 0, _ => []
  | blocks + 1, i => streamBlock key i ++ stream key blocks (i + 1)

/-- Combines bytes with the stream of a key; doing so twice gives the bytes back. -/
def veil (key bytes : List UInt8) : List UInt8 :=
  bytes.zipWith (· ^^^ ·) (stream key ((bytes.length + 31) / 32) 0)

namespace DeviceProfile

def signals (p : DeviceProfile) : List String := [p.userAgent, p.locale, p.screen, p.origin]

def isBlank (p : DeviceProfile) : Bool := p.signals.all Text.isAllBlank

/-- The key of a profile: the digest of its signals, each followed by a separator. -/
def key? (p : DeviceProfile) : Except SealError (List UInt8) :=
  if p.isBlank then .error .keyUnavailable
  else .ok (Sha256.digest (p.signals.flatMap fun s => Utf8.encode s ++ [0x1f]))

/-- The signals as one opaque text. -/
def fingerprint (p : DeviceProfile) : String :=
  String.ofList (Base64.encode Base64.standard
    (Utf8.encode (p.userAgent ++ "|" ++ p.locale ++ "|" ++ p.screen ++ "|" ++ p.origin)))

/-- The sealed form of a text. -/
def sealText (p : DeviceProfile) (plain : String) : Except SealError String := do
  let key ← p.key?
  return String.ofList (sealMark ++ Base64.encode Base64.standard (veil key (Utf8.encode plain)))

/-- The text that was sealed. A text without the mark, or one that opens to bytes that are no
text, opens to the empty text. -/
def openText (p : DeviceProfile) (sealed : String) : Except SealError String := do
  let key ← p.key?
  if sealMark.isPrefixOf sealed.toList then
    match Base64.decode? Base64.standard (sealed.toList.drop 3) with
    | none => throw .badEncoding
    | some bytes => return (Utf8.decode? (veil key bytes)).getD ""
  else return ""

def toJson (p : DeviceProfile) : Json :=
  .ofFields [("user_agent", .string p.userAgent), ("locale", .string p.locale),
    ("screen", .string p.screen), ("origin", .string p.origin)]

/-- The profile in words. -/
def describe (p : DeviceProfile) : String :=
  "DeviceProfile \x7b user_agent: " ++ Text.quoted p.userAgent ++ ", locale: " ++
    Text.quoted p.locale ++ ", screen: " ++ Text.quoted p.screen ++ ", origin: " ++
    Text.quoted p.origin ++ " \x7d"

end DeviceProfile

end ClientSession
