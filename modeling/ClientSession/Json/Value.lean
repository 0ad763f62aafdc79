import ClientSession.Decimal.Shortest

/-!
# JSON values

A number is a 64-bit integer, signed or not, or a double. The fields of an object stand in the
order of their keys, each key once; `Json.ofFields` builds such an object from any list of
fields, the last of several with one key staying.
-/

namespace ClientSession

/-- A JSON number. -/
inductive JsonNumber where
  /-- An integer from zero up, less than `2 ^ 64`. -/
  | natural (n : Nat)
  /-- The integer `-n`, where `0 < n ≤ 2 ^ 63`. -/
  | negative (n : Nat)
  /-- The finite double with these bits. -/
  | double (bits : UInt64)
deriving DecidableEq

/-- A JSON value. -/
inductive Json where
  | null
  | bool (b : Bool)
  | number (n : JsonNumber)
  | string (s : String)
  | array (items : List Json)
  | object (fields : List (String × Json))
deriving Inhabited

namespace Json

/-- Puts a field in its place, or replaces the one with the same key. -/
def placeField (k : String) (v : Json) : List (String × Json) → List (String × Json)
  | [] => [(k, v)]
  | (k', v') :: rest =>
    if k < k' then (k, v) :: (k', v') :: rest
    else if k' < k then (k', v') :: placeField k v rest
    else (k, v) :: rest

/-- The object with these fields. -/
def ofFields (fields : List (String × Json)) : Json :=
  .object (fields.foldl (fun acc f => placeField f.1 f.2 acc) [])

def ofNat (n : Nat) : Json := .number (.natural n)

def ofInt (n : Int) : Json :=
  if 0 ≤ n then .number (.natural n.toNat) else .number (.negative (-n).toNat)

/-- The value of a field of an object. -/
def field? : Json → String → Option Json
  | .object fields, k => (fields.find? fun f => f.1 = k).map (·.2)
  | _, _ => none

def text? : Json → Option String
  | .string s => some s
  | _ => none

end Json

end ClientSession
