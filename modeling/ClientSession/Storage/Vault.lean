import ClientSession.Device
import ClientSession.Http.Message
import ClientSession.Storage.Backend

/-!
# Vaults

A vault keeps texts in a backend under keys that start with its space, sealed with the key of a
device. Without a key, texts are kept as they are; a text that does not open is given back as it
is. Failures of the backend stay inside: what cannot be read is absent, what cannot be written is
lost.
-/

namespace ClientSession

structure Vault where
  space : String
  profile : DeviceProfile
deriving DecidableEq, Inhabited

namespace Vault

/-- The key in the backend of a key of the vault. -/
def rawKey (v : Vault) (key : String) : String := v.space ++ key

/-- What is stored for a text. -/
def conceal (v : Vault) (plain : String) : String :=
  match v.profile.sealText plain with
  | .ok s => s
  | .error _ => plain

/-- The text that something stored stands for. -/
def reveal (v : Vault) (raw : String) : String :=
  match v.profile.openText raw with
  | .ok plain => if plain.isEmpty then raw else plain
  | .error _ => raw

def set (v : Vault) (key value : String) (b : Backend) : Backend :=
  (b.set (v.rawKey key) (v.conceal value)).2

def get (v : Vault) (key : String) (b : Backend) : Option String × Backend :=
  (match (b.get (v.rawKey key)).1 with
    | .ok raw => raw.map v.reveal
    | .error _ => none, (b.get (v.rawKey key)).2)

def has (v : Vault) (key : String) (b : Backend) : Bool × Backend :=
  (match (b.get (v.rawKey key)).1 with
    | .ok raw => raw.isSome
    | .error _ => false, (b.get (v.rawKey key)).2)

/-- Removes a key; whether the backend did so. -/
def remove (v : Vault) (key : String) (b : Backend) : Bool × Backend :=
  (match (b.remove (v.rawKey key)).1 with
    | .ok _ => true
    | .error _ => false, (b.remove (v.rawKey key)).2)

/-- The part of a key of the backend behind the space, if the key is one of the vault's. -/
def ownKey? (v : Vault) (raw : String) : Option String :=
  if v.space.toList.isPrefixOf raw.toList then
    some (String.ofList (raw.toList.drop v.space.toList.length))
  else none

/-- The keys of the vault in order; none when the backend cannot list them. -/
def keys (v : Vault) (b : Backend) : List String × Backend :=
  (match b.keys.1 with
    | .ok raw => raw.filterMap v.ownKey?
    | .error _ => [], b.keys.2)

/-- The characters occur one after another in the text. -/
def occurs (part : List Char) : List Char → Bool
  | [] => part.isEmpty
  | c :: cs => part.isPrefixOf (c :: cs) || occurs part cs

/-- The key is about a session: the removal of such a key is made known. -/
def concernsSession (key : String) : Bool :=
  ["token", "auth", "claims"].any fun part => occurs part.toList (lowerCase key).toList

end Vault

end ClientSession
