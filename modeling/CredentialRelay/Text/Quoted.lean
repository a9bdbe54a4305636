import CredentialRelay.Text.Unprintable

/-!
# Quoted text

The form in which texts are shown inside diagnostics: between double quotes, with everything
that would not be seen, or would end the quote, spelled out.

* Backslash, double quote, tab, line feed, carriage return and NUL have escapes of two
  characters; a single quote is left alone.
* Other control characters and unprintable code points are spelled `\u{…}` in lower-case
  hexadecimal digits without leading zeros.
-/

namespace CredentialRelay.Text

/-- The lower-case hexadecimal digits of `n`, without leading zeros. -/
def hexDigits (n : Nat) : List Char :=
  Nat.toDigits 16 n

/-- How a character is written inside quotes. -/
def quotedChar (c : Char) : List Char :=
  if c = '\\' then ['\\', '\\']
  else if c = '"' then ['\\', '"']
  else if c = '\n' then ['\\', 'n']
  else if c = '\r' then ['\\', 'r']
  else if c = '\t' then ['\\', 't']
  else if c = '\x00' then ['\\', '0']
  else if c.toNat < 0x20 ∨ c.toNat = 0x7f ∨ (0x80 ≤ c.toNat ∧ isUnprintable c = true) then
    ['\\', 'u', '\x7b'] ++ hexDigits c.toNat ++ ['\x7d']
  else [c]

/-- A text between double quotes. -/
def quoted (text : String) : String :=
  String.ofList ('"' :: (text.toList.flatMap quotedChar ++ ['"']))

/-- A list of texts, each between double quotes. -/
def quotedList (texts : List String) : String :=
  "[" ++ ", ".intercalate (texts.map quoted) ++ "]"

end CredentialRelay.Text
