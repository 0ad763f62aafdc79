import ClientSession.Json.Printer
import ClientSession.Text.Basic
import ClientSession.Text.Unprintable

/-!
# Quoted text

Text as it stands in a diagnostic: between double quotes, with the usual short escapes and with
`\u{…}` for characters that do not print on their own.
-/

namespace ClientSession.Text

/-- A character as it stands in quoted text. -/
def escapeQuoted (c : Char) : String :=
  if c = '\x00' then "\\0"
  else if c = '\t' then "\\t"
  else if c = '\n' then "\\n"
  else if c = '\r' then "\\r"
  else if c = '"' then "\\\""
  else if c = '\\' then "\\\\"
  else if isUnprintable c then "\\u\x7b" ++ hexText c.toNat ++ "\x7d"
  else String.singleton c

/-- A text between quotes, as diagnostics show it. -/
def quoted (s : String) : String := "\"" ++ String.join (s.toList.map escapeQuoted) ++ "\""

end ClientSession.Text
