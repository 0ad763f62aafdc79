import ClientSession.Url.Host

/-!
# URLs

A URL has a scheme, perhaps an authority, a path, perhaps a query and a fragment. A path is a list
of segments, or, when a URL has no authority and its path does not start with a slash, flat text;
a URL with a flat path is no base for others.
-/

namespace ClientSession

namespace Url

/-- Who serves a URL: user information, host and port, as they are written. -/
structure Authority where
  userinfo : List Char
  host : List Char
  port : Option Nat
deriving DecidableEq

inductive Path where
  | flat (text : List Char)
  | segments (ss : List (List Char))
deriving DecidableEq

/-- The schemes of the web and their ports. -/
def specialSchemes : List (String × Option Nat) :=
  [("http", some 80), ("https", some 443), ("ws", some 80), ("wss", some 443), ("ftp", some 21),
    ("file", none)]

def isSpecial (scheme : List Char) : Bool :=
  specialSchemes.any fun s => s.1.toList = scheme

def defaultPort? (scheme : List Char) : Option Nat :=
  (specialSchemes.find? fun s => s.1.toList = scheme).bind (·.2)

def Path.text : Path → List Char
  | .flat text => text
  | .segments ss => ss.flatMap ('/' :: ·)

def Authority.text (a : Authority) : List Char :=
  (if a.userinfo.isEmpty then [] else a.userinfo ++ ['@']) ++ a.host ++
    match a.port with
    | some p => ':' :: (toString p).toList
    | none => []

end Url

structure Url where
  scheme : List Char
  authority : Option Url.Authority
  path : Url.Path
  query : Option (List Char)
  fragment : Option (List Char)
deriving DecidableEq

namespace Url

/-- The path is flat text. -/
def isFlat (u : Url) : Bool :=
  match u.path with
  | .flat _ => true
  | .segments _ => false

/-- The text of a URL before its query. -/
def beforeQuery (u : Url) : List Char :=
  u.scheme ++ ':' :: (match u.authority with
    | some a => '/' :: '/' :: (a.text ++ u.path.text)
    | none =>
      let text := u.path.text
      if text.take 2 = ['/', '/'] then '/' :: '.' :: text else text)

/-- The text of a URL. -/
def chars (u : Url) : List Char :=
  u.beforeQuery ++ (match u.query with
    | some q => '?' :: q
    | none => []) ++ (match u.fragment with
    | some f => '#' :: f
    | none => [])

def text (u : Url) : String := String.ofList u.chars

end Url

end ClientSession
