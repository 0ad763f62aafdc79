/-!
# Routes

A request path stands for a route: its normal form has no query and no fragment, no slash at its
end and one at its start. What a route needs is decided on the normal form.
-/

namespace ClientSession.Route

/-- Where batches of request metrics are sent. -/
def metricsIngest : String := "/metrics/request"
def health : String := "/health"
/-- Where a token is checked by the server. -/
def validate : String := "/auth/validate"
def status : String := "/auth/status"

def endsPath (c : Char) : Bool := c = '?' || c = '#'

/-- The characters of a path before its query or fragment, without slashes at the end. -/
def bare (cs : List Char) : List Char :=
  ((cs.takeWhile fun c => !endsPath c).reverse.dropWhile (· = '/')).reverse

/-- The normal form of a path's characters. -/
def normalizeChars (cs : List Char) : List Char :=
  match bare cs with
  | '/' :: rest => '/' :: rest
  | rest => '/' :: rest

/-- The normal form of a path. -/
def normalize (path : String) : String := String.ofList (normalizeChars path.toList)

/-- Routes that need no session, besides those under `/public/`. -/
def publicRoutes : List String :=
  ["/auth/login", "/auth/signup", status, health, metricsIngest]

/-- The route needs a session. -/
def requiresAuth (path : String) : Bool :=
  let route := normalize path
  !(publicRoutes.contains route || "/public/".toList.isPrefixOf route.toList)

/-- The route belongs to the sign-in family, whose calls are limited on the client. -/
def isAuthFamily (path : String) : Bool :=
  let route := normalize path
  "/auth/".toList.isPrefixOf route.toList && route != validate && route != status

/-- Calls of the route are not reported. -/
def isReportingExcluded (path : String) : Bool :=
  let route := normalize path
  route = metricsIngest || route = health || "/health/".toList.isPrefixOf route.toList

end ClientSession.Route
