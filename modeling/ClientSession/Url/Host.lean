import ClientSession.Url.Domain
import ClientSession.Url.Percent

/-!
# Hosts

The host of a URL is a domain name, an IPv4 or an IPv6 address, or, for schemes that are not the
web's own, any text. Domain names are written in ASCII.
-/

namespace ClientSession.Url

open Text (hexDigit? splitOnChar)

/-- Why a text is no URL. -/
inductive ParseError where
  | emptyHost
  | badDomain
  | badPort
  | badIpv4
  | badIpv6
  | badHostCharacter
  | noBase
  | flatBase
deriving DecidableEq

def ParseError.message : ParseError → String
  | .emptyHost => "empty host"
  | .badDomain => "invalid international domain name"
  | .badPort => "invalid port number"
  | .badIpv4 => "invalid IPv4 address"
  | .badIpv6 => "invalid IPv6 address"
  | .badHostCharacter => "invalid domain character"
  | .noBase => "relative URL without a base"
  | .flatBase => "relative URL with a cannot-be-a-base base"

/-! ## IPv4 addresses -/

/-- A part of an address: decimal, octal after a zero, hexadecimal after `0x`. -/
def ipv4Part? (cs : List Char) : Option Nat :=
  let read (radix : Nat) (cs : List Char) : Option Nat :=
    cs.foldl (fun acc c => do
      let n ← acc
      let d ← hexDigit? c
      if d < radix then some (n * radix + d) else none) (some 0)
  match cs with
  | [] => none
  | '0' :: 'x' :: rest => read 16 rest
  | '0' :: 'X' :: rest => read 16 rest
  | '0' :: c :: rest => read 8 (c :: rest)
  | _ => read 10 cs

/-- The name is to be read as an address: its last part is a number. -/
def endsInNumber (cs : List Char) : Bool :=
  let parts := (splitOnChar '.' cs).reverse
  let last? := match parts with
    | [] :: last :: _ => some last
    | [[]] => none
    | last :: _ => some last
    | [] => none
  match last? with
  | none => false
  | some last =>
    (!last.isEmpty && last.all fun c => '0' ≤ c && c ≤ '9') || (ipv4Part? last).isSome

/-- The address, as one number. -/
def ipv4? (cs : List Char) : Option Nat := do
  let parts := splitOnChar '.' cs
  let parts := if parts.getLast? = some [] then parts.dropLast else parts
  if 4 < parts.length then none
  let numbers ← parts.mapM ipv4Part?
  let last ← numbers.getLast?
  let first := numbers.dropLast
  if first.any (255 < ·) || Nat.pow 256 (4 - first.length) ≤ last then none
  return last + first.zipIdx.foldl (fun sum e => sum + e.1 * Nat.pow 256 (3 - e.2)) 0

def ipv4Text (n : Nat) : List Char :=
  (".".intercalate ((List.range 4).map fun i => toString (n / Nat.pow 256 (3 - i) % 256))).toList

/-! ## IPv6 addresses -/

/-- An address of four decimal parts inside an IPv6 address, as two pieces. -/
def embeddedIpv4? (cs : List Char) : Option (List Nat) := do
  let parts := splitOnChar '.' cs
  if parts.length ≠ 4 then none
  let numbers ← parts.mapM fun p => do
    if p.isEmpty || 3 < p.length || !(p.all fun c => '0' ≤ c && c ≤ '9') then none
    if p.head? = some '0' && 1 < p.length then none
    let n := p.foldl (fun n c => n * 10 + (c.toNat - 48)) 0
    if 255 < n then none else some n
  match numbers with
  | [a, b, c, d] => some [a * 256 + b, c * 256 + d]
  | _ => none

/-- The pieces of one side of an address; an IPv4 address may end the last side. -/
def ipv6Pieces? (last : Bool) (cs : List Char) : Option (List Nat) :=
  if cs.isEmpty then some [] else
    let parts := splitOnChar ':' cs
    let rec go : List (List Char) → Option (List Nat)
      | [] => some []
      | [p] =>
        if last && p.contains '.' then embeddedIpv4? p else (piece? p).map ([·])
      | p :: rest => do return (← piece? p) :: (← go rest)
    go parts
where
  piece? (p : List Char) : Option Nat :=
    if p.isEmpty || 4 < p.length then none
    else p.foldl (fun acc c => do return (← acc) * 16 + (← hexDigit? c)) (some 0)

/-- The text before and behind the first double colon. -/
def splitDoubleColon : List Char → Option (List Char × List Char)
  | ':' :: ':' :: rest => some ([], rest)
  | c :: rest => (splitDoubleColon rest).map fun (a, b) => (c :: a, b)
  | [] => none

/-- The eight pieces of an address. -/
def ipv6? (cs : List Char) : Option (List Nat) := do
  match splitDoubleColon cs with
  | none =>
    let pieces ← ipv6Pieces? true cs
    if pieces.length = 8 then some pieces else none
  | some (front, back) =>
    let front ← ipv6Pieces? false front
    let back ← ipv6Pieces? true back
    if 7 < front.length + back.length then none
    return front ++ List.replicate (8 - front.length - back.length) 0 ++ back

/-- The start and the length of the first longest run of zeros. -/
def longestZeros (pieces : List Nat) : Nat × Nat :=
  let lengthAt (i : Nat) : Nat := ((pieces.drop i).takeWhile (· = 0)).length
  (List.range 8).foldl (fun best i => if best.2 < lengthAt i then (i, lengthAt i) else best) (0, 0)

def ipv6Text (pieces : List Nat) : List Char :=
  let hex (n : Nat) : String := String.ofList (Nat.toDigits 16 n)
  let join (ns : List Nat) : String := ":".intercalate (ns.map hex)
  let (start, length) := longestZeros pieces
  if length < 2 then (join pieces).toList
  else (join (pieces.take start) ++ "::" ++ join (pieces.drop (start + length))).toList

/-! ## Hosts -/

/-- A character that no host contains. -/
def isForbiddenInHost (c : Char) : Bool :=
  c ∈ ['\x00', '\t', '\n', '\r', ' ', '#', '/', ':', '<', '>', '?', '@', '[', '\\', ']', '^', '|']

/-- The host of a URL of one of the web's own schemes, as it is written. -/
def specialHost (cs : List Char) : Except ParseError (List Char) :=
  match cs with
  | '[' :: rest =>
    if rest.getLast? = some ']' then
      match ipv6? rest.dropLast with
      | some pieces => .ok ('[' :: (ipv6Text pieces ++ [']']))
      | none => .error .badIpv6
    else .error .badIpv6
  | _ =>
    match Domain.ascii? (decode cs) with
    | none => .error .badDomain
    | some name =>
      if name.isEmpty then .error .emptyHost
      else if endsInNumber name then
        match ipv4? name with
        | some n => .ok (ipv4Text n)
        | none => .error .badIpv4
      else .ok name

/-- The host of any other URL, as it is written. -/
def anyHost (cs : List Char) : Except ParseError (List Char) :=
  match cs with
  | '[' :: _ => specialHost cs
  | _ => if cs.any isForbiddenInHost then .error .badHostCharacter else .ok (encode controlSet cs)

end ClientSession.Url
