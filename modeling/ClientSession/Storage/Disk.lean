/-!
# A place on disk

What a snapshot needs of a file system: the directory it is in, the snapshot itself and a staging
file beside it. Each operation may fail for a reason of its own, as the states of the three and a
list of pending failures say.
-/

namespace ClientSession

/-- Failures that the operating system reports. -/
inductive OsError where
  | fileExists
  | isDirectory
  /-- Any other failure, with its number and its words. -/
  | other (number : Nat) (words : String)
deriving DecidableEq

def OsError.message : OsError → String
  | .fileExists => "File exists (os error 17)"
  | .isDirectory => "Is a directory (os error 21)"
  | .other n words => words ++ " (os error " ++ toString n ++ ")"

/-- What is at a path. -/
inductive Entry where
  | absent
  | file (content : String)
  | directory
deriving DecidableEq

/-- The three paths. -/
inductive Location where
  | parent | snapshot | staging
deriving DecidableEq

/-- What can be done to the disk, one step at a time. -/
inductive DiskStep where
  /-- Makes the directory of the snapshot. -/
  | makeParent
  | read
  /-- Makes the staging file empty. -/
  | createStaging
  /-- Appends to the staging file. -/
  | write (text : String)
  | sync
  /-- Puts the staging file in the place of the snapshot, at once. -/
  | replace
deriving DecidableEq

structure Disk where
  parent : Entry
  snapshot : Entry
  staging : Entry
  /-- The staging file is the snapshot itself. -/
  shared : Bool
  /-- The step fails for a reason that the entries do not show. -/
  failing : DiskStep → Option OsError
  /-- How many characters of a text are in the staging file when its writing fails. -/
  kept : Nat

namespace Disk

/-- Nothing on disk yet but the directory that holds the parent. -/
def empty (shared : Bool) : Disk := ⟨.absent, .absent, .absent, shared, fun _ => none, 0⟩

def stagingEntry (d : Disk) : Entry := if d.shared then d.snapshot else d.staging

def setStaging (d : Disk) (e : Entry) : Disk :=
  if d.shared then { d with snapshot := e } else { d with staging := e }

/-- Makes the directory of the snapshot; a file in its place is in the way. -/
def makeParent (d : Disk) : Except OsError Disk :=
  match d.failing .makeParent, d.parent with
  | some e, _ => .error e
  | none, .file _ => .error .fileExists
  | none, _ => .ok { d with parent := .directory }

/-- The content of the snapshot, if there is one. -/
def read (d : Disk) : Except OsError (Option String) :=
  match d.failing .read, d.snapshot with
  | some e, _ => .error e
  | none, .directory => .error .isDirectory
  | none, .file content => .ok (some content)
  | none, .absent => .ok none

def createStaging (d : Disk) : Except OsError Disk :=
  match d.failing .createStaging, d.stagingEntry with
  | some e, _ => .error e
  | none, .directory => .error .isDirectory
  | none, _ => .ok (d.setStaging (.file ""))

/-- Appends to the staging file. -/
def write (d : Disk) (text : String) : Except OsError Disk :=
  match d.failing (.write text), d.stagingEntry with
  | some e, _ => .error e
  | none, .file content => .ok (d.setStaging (.file (content ++ text)))
  | none, _ => .ok d

/-- The first characters of a text have got into the staging file. -/
def tear (d : Disk) (text : String) (n : Nat) : Disk :=
  match d.stagingEntry with
  | .file content => d.setStaging (.file (content ++ String.ofList (text.toList.take n)))
  | _ => d

def sync (d : Disk) : Except OsError Disk :=
  match d.failing .sync with
  | some e => .error e
  | none => .ok d

def replace (d : Disk) : Except OsError Disk :=
  match d.failing .replace, d.snapshot with
  | some e, _ => .error e
  | none, .directory => .error .isDirectory
  | none, _ => .ok (if d.shared then d else { d with snapshot := d.staging, staging := .absent })

end Disk

end ClientSession
