import ClientSession.Table

/-!
# Storage backends

A backend keeps texts under keys and lists its keys in order. Any call may fail; a failed call
changes nothing that is stored.
-/

namespace ClientSession

/-- Why storage could not do what was asked. -/
inductive StoreError where
  /-- What is stored is not what storage writes. -/
  | serialization (message : String)
  | backend (message : String)
deriving DecidableEq

def StoreError.message : StoreError → String
  | .serialization m => "Serialization error: " ++ m ++ "."
  | .backend m => "Backend failure: " ++ m ++ "."

inductive StorageCall where
  | get | set | remove | keys
deriving DecidableEq

namespace StorageCall

def label : StorageCall → String
  | .get => "get"
  | .set => "set"
  | .remove => "remove"
  | .keys => "keys"

def ofLabel? (s : String) : Option StorageCall := [get, set, remove, keys].find? (·.label = s)

end StorageCall

/-- What is stored, the calls that fail until further notice, and which of the next calls fail. -/
structure Backend where
  items : Table String String
  broken : List StorageCall
  faults : List Bool
deriving Inhabited

namespace Backend

def ofItems (items : List (String × String)) : Backend := ⟨Table.ofList items, [], []⟩

/-- No call fails. -/
def Healthy (b : Backend) : Prop := b.broken = [] ∧ b.faults = []

/-- The next call fails. -/
def fails (b : Backend) (call : StorageCall) : Bool :=
  b.broken.contains call || b.faults.headD false

/-- The backend after one more call. -/
def advance (b : Backend) : Backend := { b with faults := b.faults.tail }

def unavailable : StoreError := .backend "storage is unavailable"

def get (b : Backend) (key : String) : Except StoreError (Option String) × Backend :=
  (if b.fails .get then .error unavailable else .ok (b.items.find? key), b.advance)

def set (b : Backend) (key value : String) : Except StoreError Unit × Backend :=
  if b.fails .set then (.error unavailable, b.advance)
  else (.ok (), { b.advance with items := b.items.insert key value })

def remove (b : Backend) (key : String) : Except StoreError Unit × Backend :=
  if b.fails .remove then (.error unavailable, b.advance)
  else (.ok (), { b.advance with items := b.items.erase key })

def keys (b : Backend) : Except StoreError (List String) × Backend :=
  (if b.fails .keys then .error unavailable else .ok b.items.keys, b.advance)

end Backend

end ClientSession
