import PointQuery.Json.Token
/-!
# Writing JSON

Compact texts, without blanks. In a string the quote, the backslash and the control characters are
escaped, the latter by their letter if they have one and otherwise by their number.
-/

namespace PointQuery.Json

/-- A hexadecimal digit, in lower case. -/
def hexDigit (n : Nat) : Char := if n < 10 then Char.ofNat (n + 48) else Char.ofNat (n + 87)

/-- A character inside a string. -/
def escape (c : Char) : List Char :=
  if c = '"' then ['\\', '"']
  else if c = '\\' then ['\\', '\\']
  else if c = '\x08' then ['\\', 'b']
  else if c = '\x0c' then ['\\', 'f']
  else if c = '\n' then ['\\', 'n']
  else if c = '\r' then ['\\', 'r']
  else if c = '\t' then ['\\', 't']
  else if c.toNat < 0x20 then
    ['\\', 'u', '0', '0', hexDigit (c.toNat / 16), hexDigit (c.toNat % 16)]
  else [c]

/-- A string in quotes. -/
def writeString (s : String) : List Char := '"' :: (s.toList.flatMap escape ++ ['"'])

/-- A truth value. -/
def writeBool (b : Bool) : List Char := if b then "true".toList else "false".toList

/-- A member of an object. -/
def writeMember (key : String) (value : List Char) : List Char := writeString key ++ ':' :: value

/-- Texts with commas between them. -/
def writeCommas : List (List Char) → List Char
  | [] => []
  | [t] => t
  | t :: ts => t ++ ',' :: writeCommas ts

/-- An object of members. -/
def writeObject (members : List (List Char)) : List Char :=
  '\x7b' :: (writeCommas members ++ ['\x7d'])

/-- A list of values. -/
def writeList (values : List (List Char)) : List Char := '[' :: (writeCommas values ++ [']'])

end PointQuery.Json
