import ClientSession.Http.Message
import ClientSession.Url.Parse

/-!
# The base of the service

Request paths are relative to a base, whose own path is kept: slashes at the start of a request
path do not lead back to the root.
-/

namespace ClientSession

/-- The base serves a request over the web: its scheme is one of the web's two. -/
def Url.isWeb (u : Url) : Bool := u.scheme = "http".toList || u.scheme = "https".toList

/-- The last segment of the path is empty, so that the text of the path ends in a slash. -/
def Url.endsInSlash (u : Url) : Bool :=
  match u.path with
  | .flat text => text.getLast? = some '/'
  | .segments ss => ss.getLast? = some []

/-- The URL with a slash at the end of its path. -/
def Url.withSlash (u : Url) : Url :=
  if u.endsInSlash then u
  else match u.path with
    | .flat text => { u with path := .flat (text ++ ['/']) }
    | .segments ss => { u with path := .segments (ss ++ [[]]) }

/-- A base as it is used: a web URL whose path ends in a slash. -/
def Url.asBase? (u : Url) : Option Url := if u.isWeb && !u.isFlat then some u.withSlash else none

/-- The URL that a request path stands for. -/
def Url.resolve (base : Url) (path : String) : Except TransportFailure Url :=
  match base.join (String.ofList (path.toList.dropWhile (· = '/'))) with
  | .ok u => .ok u
  | .error e =>
    .error ⟨false, "Invalid request path `" ++ path ++ "`: " ++ e.message ++ "."⟩

end ClientSession
