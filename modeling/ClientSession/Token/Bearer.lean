import ClientSession.Text.Basic

/-!
# Bearer tokens

A token is an opaque text; showing a token never shows the text.
-/

namespace ClientSession

structure BearerToken where
  text : String
deriving DecidableEq, Inhabited

namespace BearerToken

/-- The token holds blanks only. -/
def isBlank (t : BearerToken) : Bool := Text.isAllBlank t.text

/-- The value of the authorization header. -/
def authorization (t : BearerToken) : String := "Bearer " ++ t.text

/-- What is shown in the token's place. -/
def redacted : String := "<redacted>"

/-- The token in words. -/
def describe (_ : BearerToken) : String := "BearerToken(\"" ++ redacted ++ "\")"

end BearerToken

end ClientSession
