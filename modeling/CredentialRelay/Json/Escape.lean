/-!
# Writing JSON text

Strings are written with the escapes that JSON demands and no others: the double quote, the
backslash, and the control characters below a blank. Five of those have escapes of one letter.
-/

namespace CredentialRelay.Json

/-- How a character is written inside a string. -/
def escapedChar (c : Char) : List Char :=
  if c = '"' then ['\\', '"']
  else if c = '\\' then ['\\', '\\']
  else if c = '\x08' then ['\\', 'b']
  else if c = '\x0c' then ['\\', 'f']
  else if c = '\n' then ['\\', 'n']
  else if c = '\r' then ['\\', 'r']
  else if c = '\t' then ['\\', 't']
  else if c.toNat < 0x20 then
    ['\\', 'u', '0', '0', Nat.digitChar (c.toNat / 16), Nat.digitChar (c.toNat % 16)]
  else [c]

/-- A string. -/
def writeText (text : String) : String :=
  String.ofList ('"' :: (text.toList.flatMap escapedChar ++ ['"']))

/-- An array of values that are written already. -/
def writeArray (values : List String) : String :=
  "[" ++ ",".intercalate values ++ "]"

/-- An object of named values that are written already. -/
def writeObject (members : List (String × String)) : String :=
  "\x7b" ++ ",".intercalate (members.map fun m => writeText m.1 ++ ":" ++ m.2) ++ "\x7d"

end CredentialRelay.Json
