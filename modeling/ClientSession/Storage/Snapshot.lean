import ClientSession.Json.Decoder
import ClientSession.Json.Printer
import ClientSession.Storage.Backend
import ClientSession.Storage.Disk

/-!
# A store in a file

Items are kept in memory and written as one JSON document after each change: into a staging file,
which then takes the place of the snapshot. Opening reads the snapshot.
-/

namespace ClientSession

/-- Items by key. -/
abbrev Items := Table String String

namespace Items

/-- The line of an item. -/
def line (e : String × String) : List Char :=
  "\n  ".toList ++ Json.quote e.1 ++ ": ".toList ++ Json.quote e.2

/-- The document of items: an object with a line for each item. -/
def document (items : Items) : String :=
  match items.entries with
  | [] => "\x7b\x7d"
  | es => String.ofList ('\x7b' :: (List.intercalate [','] (es.map line) ++ ['\n', '\x7d']))

/-- The items of a document. -/
def ofDocument (text : String) : Except Json.Issue Items :=
  Json.decodeWhole (Json.decodeTable Json.textKeys Json.decodeString) text

end Items

/-- Why a file store could not do what was asked. -/
inductive FileError where
  /-- The operating system refused an action at a path. -/
  | refused (action : String) (location : Location) (reason : OsError)
  /-- The snapshot is no document of items. -/
  | notItems (text : String) (issue : Json.Issue)

/-- The failure in the words of storage, given the texts of the paths. -/
def FileError.toStoreError (pathOf : Location → String) : FileError → StoreError
  | .refused action location reason =>
    .backend ("Could not " ++ action ++ " " ++ pathOf location ++ ": " ++ reason.message)
  | .notItems text issue =>
    .serialization ("Session snapshot " ++ pathOf .snapshot ++ " is not a JSON object: " ++
      issue.message text.toList)

/-- A result together with the disk that an operation leaves. -/
abbrev DiskResult (α : Type) := Except FileError α × Disk

/-- One operation of the disk: when it fails, the disk is as it was. -/
def attempt (action : String) (location : Location) (d : Disk)
    (step : Disk → Except OsError Disk) : DiskResult Unit :=
  match step d with
  | .ok d' => (.ok (), d')
  | .error e => (.error (.refused action location e), d)

/-- Runs the second operation on the disk of the first, unless that failed. -/
def thenDisk {α β : Type} (r : DiskResult α) (f : α → Disk → DiskResult β) : DiskResult β :=
  match r with
  | (.ok a, d) => f a d
  | (.error e, d) => (.error e, d)

/-- The items of the snapshot; none when there is no snapshot or it is empty. -/
def readSnapshot (d : Disk) : DiskResult Items :=
  thenDisk (attempt "create" .parent d Disk.makeParent) fun _ d =>
    match d.read with
    | .error e => (.error (.refused "read" .snapshot e), d)
    | .ok none => (.ok Table.empty, d)
    | .ok (some text) =>
      if text.isEmpty then (.ok Table.empty, d)
      else match Items.ofDocument text with
        | .ok items => (.ok items, d)
        | .error issue => (.error (.notItems text issue), d)

/-- Appends to the staging file; when this fails, the file may hold the beginning of the text. -/
def writeStaging (text : String) (d : Disk) : DiskResult Unit :=
  match d.write text with
  | .ok d' => (.ok (), d')
  | .error e => (.error (.refused "write" .staging e), d.tear text d.kept)

/-- Writes the items into the staging file and puts it in the place of the snapshot. -/
def writeSnapshot (items : Items) (d : Disk) : DiskResult Unit :=
  thenDisk (attempt "create" .parent d Disk.makeParent) fun _ d =>
    thenDisk (attempt "create" .staging d Disk.createStaging) fun _ d =>
      thenDisk (writeStaging items.document d) fun _ d =>
        thenDisk (attempt "sync" .staging d Disk.sync) fun _ d =>
          attempt "replace" .snapshot d Disk.replace

/-- A store whose items are kept in a file. -/
structure FileStore where
  items : Items

namespace FileStore

/-- Opens the store at a path. -/
def openAt (d : Disk) : DiskResult FileStore :=
  thenDisk (readSnapshot d) fun items d => (.ok ⟨items⟩, d)

def get? (s : FileStore) (key : String) : Option String := s.items.find? key

def keys (s : FileStore) : List String := s.items.keys

/-- Stores a value: in memory, and then in the snapshot. -/
def set (s : FileStore) (key value : String) (d : Disk) : DiskResult Unit × FileStore :=
  let items := s.items.insert key value
  (writeSnapshot items d, ⟨items⟩)

/-- Removes a key, if it is there: from memory, and then from the snapshot. -/
def remove (s : FileStore) (key : String) (d : Disk) : DiskResult Unit × FileStore :=
  if s.items.contains key then
    let items := s.items.erase key
    (writeSnapshot items d, ⟨items⟩)
  else ((.ok (), d), s)

end FileStore

end ClientSession
