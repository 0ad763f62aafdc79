import ClientSession.Bytes.Utf8
import ClientSession.Url.Domain.Direction
import ClientSession.Url.Domain.Folding
import ClientSession.Url.Domain.Joining
import ClientSession.Url.Percent
import ClientSession.Url.Punycode

/-!
# Domain names

A domain name is a row of labels between full stops. Names that are compared as equal have one
form in ASCII, in which a label with other characters is encoded; a label may also be given in that
form. An encoded label stands for the characters that it encodes, and these have to satisfy what
every label satisfies.
-/

namespace ClientSession.Url.Domain

open Text (splitOnChar)

/-- A character that no domain name contains. -/
def isForbidden (c : Char) : Bool :=
  isControl c || c ∈ [' ', '#', '%', '/', ':', '<', '>', '?', '@', '[', '\\', ']', '^', '|']

def isAscii (cs : List Char) : Bool := cs.all (·.toNat < 0x80)

/-- What an encoded label starts with. -/
def encodedMark : List Char := ['x', 'n', '-', '-']

/-- The most characters that are decoded. -/
def longestEncoded : Nat := 2000

/-- The most characters of a label that are encoded. -/
def longestDecoded : Nat := 1000

/-- The characters for which a label stands. -/
def meaning? (label : List Char) : Option (List Char) :=
  if label.take 4 = encodedMark then
    let code := label.drop 4
    if !isAscii label || label.getLast? = some '-' || longestEncoded < code.length then none
    else Punycode.decode? code
  else some label

/-- The characters of a label are in the form in which they are compared, a letter comes before
its marks, and joiners stand where they change something. -/
def isLabel (cs : List Char) : Bool :=
  fold? cs = some cs && !(cs.head?.any Text.isMark) && joinersFit [] cs &&
    (isAscii cs || cs.length ≤ longestDecoded)

/-- A label in ASCII. -/
def asciiForm (label : List Char) : List Char :=
  if isAscii label then label else encodedMark ++ Punycode.encode label

/-- The name that the bytes spell, in ASCII. -/
def ascii? (bytes : List UInt8) : Option (List Char) := do
  let text ← Utf8.decode? bytes
  let name ← fold? text.toList
  if name.any isForbidden then none
  let labels := splitOnChar '.' name
  let meanings ← labels.mapM meaning?
  if !(meanings.all isLabel && directionsFit meanings) then none
  return List.intercalate ['.'] (labels.map asciiForm)

end ClientSession.Url.Domain
