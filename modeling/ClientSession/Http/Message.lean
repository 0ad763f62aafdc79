import ClientSession.Json.Reader
import ClientSession.Table

/-!
# Requests and responses

Header names are kept in lower case. Any status is a response; a call without a response is a
transport failure.
-/

namespace ClientSession

inductive Method where
  | get | head | post | put | patch | delete
deriving DecidableEq, Inhabited

namespace Method

def name : Method → String
  | .get => "GET"
  | .head => "HEAD"
  | .post => "POST"
  | .put => "PUT"
  | .patch => "PATCH"
  | .delete => "DELETE"

def all : List Method := [get, head, post, put, patch, delete]

def ofName? (s : String) : Option Method := all.find? (·.name = s)

/-- The method changes nothing on the server. -/
def isReadOnly : Method → Bool
  | .get | .head => true
  | _ => false

end Method

/-- Headers by name in lower case. -/
abbrev Headers := Table String String

/-- A text with its ASCII letters in lower case. -/
def lowerCase (s : String) : String := String.ofList (s.toList.map Char.toLower)

namespace Headers

def set (h : Headers) (name value : String) : Headers := h.insert (lowerCase name) value

def get? (h : Headers) (name : String) : Option String := h.find? (lowerCase name)

def ofPairs (pairs : List (String × String)) : Headers :=
  pairs.foldl (fun h p => h.set p.1 p.2) Table.empty

end Headers

/-- An outgoing request; the path is relative to the base of the service. -/
structure Request where
  method : Method
  path : String
  headers : Headers
  body : Option Json
deriving Inhabited

namespace Request

def new (method : Method) (path : String) : Request := ⟨method, path, Table.empty, none⟩

def setHeader (r : Request) (name value : String) : Request :=
  { r with headers := r.headers.set name value }

def header? (r : Request) (name : String) : Option String := r.headers.get? name

end Request

structure Response where
  status : Nat
  headers : Headers
  body : String
deriving DecidableEq, Inhabited

namespace Response

def header? (r : Response) (name : String) : Option String := r.headers.get? name

def isSuccess (r : Response) : Bool := 200 ≤ r.status && r.status < 300

/-- The body as a JSON value, if it is one. -/
def json? (r : Response) : Option Json := Json.parse? r.body

end Response

/-- A call that had no response; it was aborted, or the network failed. -/
structure TransportFailure where
  aborted : Bool
  message : String
deriving DecidableEq, Inhabited

/-- What became of a call. -/
abbrev TransportOutcome := Except TransportFailure Response

end ClientSession
