import ClientSession.Url.Basic

/-!
# Reading URLs

A text is a URL of its own, or it is read relative to a base. Reading removes controls and spaces
at the ends and line breaks and tabs anywhere, resolves the segments `.` and `..`, and encodes what
may not stand where it stands.
-/

namespace ClientSession.Url

/-- The text without what is never part of a URL. -/
def clean (cs : List Char) : List Char :=
  let outer (c : Char) : Bool := c.toNat ≤ 0x20
  (((cs.dropWhile outer).reverse.dropWhile outer).reverse).filter fun c =>
    c ≠ '\t' && c ≠ '\n' && c ≠ '\r'

def isLetter (c : Char) : Bool := ('a' ≤ c && c ≤ 'z') || ('A' ≤ c && c ≤ 'Z')

def isSchemeChar (c : Char) : Bool :=
  isLetter c || ('0' ≤ c && c ≤ '9') || c = '+' || c = '-' || c = '.'

/-- The scheme in lower case and what follows its colon. -/
def scheme? (cs : List Char) : Option (List Char × List Char) :=
  match cs.head? with
  | some c =>
    if isLetter c then
      match cs.dropWhile isSchemeChar with
      | ':' :: rest => some ((cs.takeWhile isSchemeChar).map Char.toLower, rest)
      | _ => none
    else none
  | none => none

/-! ## Paths -/

def isSlash (c : Char) : Bool := c = '/' || c = '\\'

/-- A character that separates segments; a backslash does so for special schemes. -/
def separates (special : Bool) (c : Char) : Bool := c = '/' || (special && c = '\\')

def startsQuery (c : Char) : Bool := c = '?' || c = '#'

/-- The parts of a path between separators. -/
def splitPath (special : Bool) (cs : List Char) : List (List Char) :=
  Text.splitOnChar '/' (cs.map fun c => if separates special c then '/' else c)

/-- The segment with its encoded dots decoded. -/
def decodeDots : List Char → List Char
  | '%' :: '2' :: 'e' :: rest => '.' :: decodeDots rest
  | '%' :: '2' :: 'E' :: rest => '.' :: decodeDots rest
  | c :: rest => c :: decodeDots rest
  | [] => []

/-- The segment may name a drive: it is a letter and a colon or a bar. -/
def namesDrive : List Char → Bool
  | [a, b] => isLetter a && (b = ':' || b = '|')
  | _ => false

/-- The segment is a drive as it is written: a letter and a colon. -/
def isDrive (segment : List Char) : Bool := namesDrive segment && segment.getLast? = some ':'

def fileScheme : List Char := "file".toList

/-- A part of a path as the next segment. The first segment of a file's path is written as a drive
if it names one. -/
def nextSegment (scheme : List Char) (ss : List (List Char)) (part : List Char) : List Char :=
  if scheme = fileScheme && ss.isEmpty && namesDrive part then part.take 1 ++ [':']
  else encode pathSet part

/-- Appends the parts of a path to segments: `..` removes the last one unless it may name a drive,
`.` adds none, and either at the end leaves an empty last segment. -/
def appendParts (scheme : List Char) : List (List Char) → List (List Char) → List (List Char)
  | ss, [] => ss
  | ss, part :: parts =>
    let ending : List (List Char) := if parts.isEmpty then [[]] else []
    let dots := decodeDots part
    if dots = ['.', '.'] then
      let kept := if ss.getLast?.any namesDrive then ss else ss.dropLast
      appendParts scheme (kept ++ ending) parts
    else if dots = ['.'] then appendParts scheme (ss ++ ending) parts
    else appendParts scheme (ss ++ [nextSegment scheme ss part]) parts

/-- The segments of a path that follow given ones. -/
def readSegments (scheme : List Char) (ss : List (List Char)) (cs : List Char) :
    List (List Char) :=
  appendParts scheme ss (splitPath (isSpecial scheme) (cs.takeWhile fun c => !startsQuery c))

/-- The query and the fragment behind a path. -/
def behindPath (cs : List Char) : List Char := cs.dropWhile fun c => !startsQuery c

/-- The URL with the query and the fragment that a text holds. -/
def withTail (u : Url) (cs : List Char) : Url :=
  let fragmentOf (cs : List Char) : Option (List Char) := match cs with
    | '#' :: rest => some (encode fragmentSet rest)
    | _ => none
  match cs with
  | '?' :: rest =>
    let set := if isSpecial u.scheme then specialQuerySet else querySet
    { u with
      query := some (encode set (rest.takeWhile (· ≠ '#'))),
      fragment := fragmentOf (rest.dropWhile (· ≠ '#')) }
  | _ => { u with query := none, fragment := fragmentOf cs }

/-! ## Authorities -/

def endsAuthority (special : Bool) (c : Char) : Bool := separates special c || startsQuery c

/-- The user information as it is written: a name and perhaps a password, each encoded. -/
def userinfoText (cs : List Char) : List Char :=
  let name := cs.takeWhile (· ≠ ':')
  let password := (cs.dropWhile (· ≠ ':')).drop 1
  encode userinfoSet name ++
    if password.isEmpty then [] else ':' :: encode userinfoSet password

/-- The text before and behind the last `@`. -/
def splitAtSign (cs : List Char) : Option (List Char × List Char) :=
  if cs.contains '@' then
    let back := (cs.reverse.takeWhile (· ≠ '@')).reverse
    some (cs.take (cs.length - back.length - 1), back)
  else none

/-- The host's text and what follows it: a colon outside brackets ends it. -/
def splitHost : Bool → List Char → List Char × List Char
  | _, [] => ([], [])
  | inside, c :: rest =>
    if c = ':' ∧ !inside then ([], c :: rest)
    else
      let (host, rest) := splitHost (if c = '[' then true else if c = ']' then false else inside) rest
      (c :: host, rest)

/-- The port behind a colon; an empty one and the scheme's own are left out. -/
def readPort (scheme cs : List Char) : Except ParseError (Option Nat) :=
  let number := cs.foldl (fun acc c => do
    let n ← acc
    if '0' ≤ c ∧ c ≤ '9' ∧ n * 10 + (c.toNat - 48) < 65536 then some (n * 10 + (c.toNat - 48))
    else none) (some 0)
  match number with
  | none => .error .badPort
  | some n => .ok (if cs.isEmpty || defaultPort? scheme = some n then none else some n)

/-- An authority, which is all of the text. -/
def readAuthority (scheme cs : List Char) : Except ParseError Authority := do
  let special := isSpecial scheme
  let (userinfo, cs) := (splitAtSign cs).getD ([], cs)
  let written := userinfoText userinfo
  let (host, port) := splitHost false cs
  if special && host.isEmpty then throw .emptyHost
  let host ← if special then specialHost host else anyHost host
  if host.isEmpty && (!written.isEmpty || !port.isEmpty) then throw .emptyHost
  let port ← match port with
    | ':' :: digits => readPort scheme digits
    | _ => .ok none
  return ⟨written, host, port⟩

/-- A URL whose authority starts the text. An authority that is a lone `@` only ends a text. -/
def readHierarchical (scheme cs : List Char) : Except ParseError Url := do
  let special := isSpecial scheme
  let front := cs.takeWhile fun c => !endsAuthority special c
  let rest := cs.dropWhile fun c => !endsAuthority special c
  if front = ['@'] && !rest.isEmpty then throw .emptyHost
  let authority ← readAuthority scheme front
  let root : List (List Char) := if special then [[]] else []
  let segments :=
    match rest with
    | c :: more => if separates special c then readSegments scheme [] more else root
    | [] => root
  return withTail ⟨scheme, some authority, .segments segments, none, none⟩ (behindPath rest)

/-! ## Files -/

/-- A path of a file has no empty segments at its start. -/
def trimFilePath (ss : List (List Char)) : List (List Char) :=
  match ss.dropWhile List.isEmpty with
  | [] => [[]]
  | ss => ss

/-- A file on a host, with the path that a text holds behind given segments. -/
def fileUrl (host : List Char) (ss : List (List Char)) (cs : List Char) : Url :=
  let path : Path := .segments (trimFilePath (readSegments fileScheme ss cs))
  withTail ⟨fileScheme, some ⟨[], host, none⟩, path, none, none⟩ (behindPath cs)

/-- The host and the segments of a base that is a file. -/
def fileBase? (base : Option Url) : Option (List Char × List (List Char) × Url) := do
  let b ← base
  if b.scheme ≠ fileScheme then none
  match b.path with
  | .segments ss => some ((b.authority.map (·.host)).getD [], ss, b)
  | .flat _ => none

/-- The first segment of a text may name a drive. -/
def startsWithDrive : List Char → Bool
  | a :: b :: rest => namesDrive [a, b] && rest.head?.all (endsAuthority true)
  | _ => false

/-- A file whose host starts the text. What may name a drive is no host, the host of the machine
itself is not written, and a path on a drive has no other. -/
def readFileHost (cs : List Char) : Except ParseError Url := do
  let text := cs.takeWhile fun c => !endsAuthority true c
  if namesDrive text then return fileUrl [] [] cs
  let rest := cs.dropWhile fun c => !endsAuthority true c
  let host ← if text.isEmpty then pure [] else specialHost text
  if host.isEmpty || host = "localhost".toList then return fileUrl [] [] rest
  let path := match rest with
    | c :: more => if isSlash c then more else rest
    | [] => []
  let onDrive := (readSegments fileScheme [] path).head?.any isDrive
  return fileUrl (if onDrive then [] else host) [] path

/-- A file whose path starts at the root of the drive or the host of a base. -/
def fileAtRoot (base : Option Url) (cs : List Char) : Url :=
  match fileBase? base with
  | none => fileUrl [] [] cs
  | some (host, ss, _) =>
    if startsWithDrive cs then fileUrl [] [] cs
    else if ss.head?.any isDrive then fileUrl [] (ss.take 1) cs
    else fileUrl host [] cs

/-- The first segment of a text is one of the two that add none. -/
def startsWithDots (cs : List Char) : Bool :=
  let first := decodeDots (cs.takeWhile fun c => !endsAuthority true c)
  first = ['.'] || first = ['.', '.']

/-- A file relative to another. A drive at the end of a path stays; behind other segments it is
continued by a text that starts with a segment of its own. -/
def fileFrom (host : List Char) (ss : List (List Char)) (cs : List Char) : Url :=
  let last := ss.getLast?.getD []
  if startsWithDrive cs then fileUrl [] [] cs
  else if !isDrive last then fileUrl host ss.dropLast cs
  else if ss.length = 1 || startsWithDots cs then fileUrl host ss cs
  else fileUrl host ss.dropLast (last ++ cs)

def readFile (base : Option Url) (cs : List Char) : Except ParseError Url :=
  match cs with
  | a :: rest =>
    if isSlash a then
      match rest with
      | b :: more => if isSlash b then readFileHost more else .ok (fileAtRoot base rest)
      | [] => .ok (fileAtRoot base [])
    else
      match fileBase? base with
      | none => .ok (fileUrl [] [] cs)
      | some (host, ss, b) =>
        if a = '#' then .ok { b with fragment := some (encode fragmentSet rest) }
        else if a = '?' then .ok (withTail b cs)
        else .ok (fileFrom host ss cs)
  | [] =>
    match fileBase? base with
    | none => .ok (fileUrl [] [] [])
    | some (_, _, b) => .ok { b with fragment := none }

/-! ## Relative and absolute URLs -/

/-- A text relative to a base that is neither flat nor a file. A backslash at the start counts as a
slash; two slashes start an authority, before which further ones are left out if any of the two is
a backslash. -/
def readRelative (base : Url) (cs : List Char) : Except ParseError Url :=
  let segments := match base.path with
    | .segments ss => ss
    | .flat _ => []
  match cs with
  | [] => .ok { base with fragment := none }
  | c :: rest =>
    if c = '?' then .ok (withTail base cs)
    else if c = '#' then .ok { base with fragment := some (encode fragmentSet rest) }
    else if isSlash c then
      match rest with
      | d :: more =>
        if c = '/' && d = '/' then readHierarchical base.scheme more
        else if isSlash d then readHierarchical base.scheme (more.dropWhile isSlash)
        else .ok (onPath [] rest)
      | [] => .ok (onPath [] [])
    else .ok (onPath segments.dropLast cs)
where
  onPath (ss : List (List Char)) (cs : List Char) : Url :=
    withTail { base with path := .segments (readSegments base.scheme ss cs) } (behindPath cs)

/-- A URL behind its scheme. -/
def readAbsolute (base : Option Url) (scheme cs : List Char) : Except ParseError Url :=
  if scheme = fileScheme then readFile base cs
  else if isSpecial scheme then
    let few := (cs.takeWhile isSlash).length < 2
    match base with
    | some b =>
      if few && b.scheme = scheme then readRelative b cs
      else readHierarchical scheme (cs.dropWhile isSlash)
    | none => readHierarchical scheme (cs.dropWhile isSlash)
  else
    match cs with
    | '/' :: '/' :: rest => readHierarchical scheme rest
    | '/' :: rest =>
      let path : Path := .segments (readSegments scheme [] rest)
      .ok (withTail ⟨scheme, none, path, none, none⟩ (behindPath rest))
    | _ =>
      let text := encode controlSet (cs.takeWhile fun c => !startsQuery c)
      .ok (withTail ⟨scheme, none, .flat text, none, none⟩ (behindPath cs))

/-- The URL that a text denotes, relative to a base if there is one. -/
def read (base : Option Url) (text : String) : Except ParseError Url :=
  let cs := clean text.toList
  match scheme? cs with
  | some (scheme, rest) => readAbsolute base scheme rest
  | none =>
    match base with
    | none => .error .noBase
    | some b =>
      match cs with
      | '#' :: rest => .ok { b with fragment := some (encode fragmentSet rest) }
      | _ =>
        if b.isFlat then .error .flatBase
        else if b.scheme = fileScheme then readFile base cs
        else readRelative b cs

/-- The URL that a text denotes on its own. -/
def parse (text : String) : Except ParseError Url := read none text

/-- The URL that a text denotes relative to a base. -/
def join (base : Url) (text : String) : Except ParseError Url := read (some base) text

end ClientSession.Url
