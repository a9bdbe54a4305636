import CredentialRelay.Number.Shortest
import CredentialRelay.Text.Natural
import CredentialRelay.Text.Quoted

/-!
# Faults of a JSON text

A fault is a cause and a place. The place is kept as the text that was still unread, so that
readers need not count; `Fault.message` turns it into a line and a column of the whole text.

* Lines count from one. Columns count the bytes of the line before the place, so a place just
  behind the first byte of a line has column one, and one just behind a line feed has column zero.
* A cause is about syntax, or about a value of the wrong kind, or about the members of a record.
-/

namespace CredentialRelay.Json

/-- A number as it is written: whole numbers keep their value, all others are rounded. -/
inductive Number where
  /-- A whole number below `2 ^ 64`. -/
  | natural (n : Nat)
  /-- The negative of a whole number from `1` to `2 ^ 63`. -/
  | negative (n : Nat)
  /-- Any other number. -/
  | floating (negative : Bool) (x : Binary64)
  deriving Repr, DecidableEq

/-- A value as it is named in a fault about its kind. -/
inductive Found where
  | null
  | boolean (b : Bool)
  | number (n : Number)
  | text (s : String)
  | list
  | object
  deriving Repr, DecidableEq

/-- The name of a value in a fault about its kind. -/
def Found.describe : Found → String
  | .null => "null"
  | .boolean b => s!"boolean `{b}`"
  | .number (.natural n) => s!"integer `{n}`"
  | .number (.negative n) => s!"integer `-{n}`"
  | .number (.floating negative x) => "floating point `" ++ x.render negative ++ "`"
  | .text s => "string " ++ Text.quoted s
  | .list => "sequence"
  | .object => "map"

/-- What is wrong. -/
inductive Cause where
  | endInValue
  | endInString
  | endInList
  | endInObject
  | expectedValue
  | expectedIdent
  | expectedColon
  | expectedCommaOrBracket
  | expectedCommaOrBrace
  | keyNotString
  | trailingComma
  | trailingCharacters
  | invalidNumber
  | numberOutOfRange
  | invalidEscape
  | controlCharacter
  | loneSurrogate
  | unfinishedSurrogate
  | invalidCodePoint
  | tooDeep
  /-- A value of one kind stands where another is expected. -/
  | invalidType (found : Found) (expected : String)
  /-- A value of the right kind is not among those expected. -/
  | invalidValue (found : Found) (expected : String)
  /-- A list ends before every required element is read. -/
  | invalidLength (length : Nat) (expected : String)
  | duplicateField (name : String)
  | missingField (name : String)
  /-- The text of a string is not of the form that its member requires. -/
  | malformedText (reason : String)
  deriving Repr, DecidableEq

/-- The wording of each cause. -/
def Cause.message : Cause → String
  | .endInValue => "EOF while parsing a value"
  | .endInString => "EOF while parsing a string"
  | .endInList => "EOF while parsing a list"
  | .endInObject => "EOF while parsing an object"
  | .expectedValue => "expected value"
  | .expectedIdent => "expected ident"
  | .expectedColon => "expected `:`"
  | .expectedCommaOrBracket => "expected `,` or `]`"
  | .expectedCommaOrBrace => "expected `,` or `\x7d`"
  | .keyNotString => "key must be a string"
  | .trailingComma => "trailing comma"
  | .trailingCharacters => "trailing characters"
  | .invalidNumber => "invalid number"
  | .numberOutOfRange => "number out of range"
  | .invalidEscape => "invalid escape"
  | .controlCharacter => "control character (\\u0000-\\u001F) found while parsing a string"
  | .loneSurrogate => "lone leading surrogate in hex escape"
  | .unfinishedSurrogate => "unexpected end of hex escape"
  | .invalidCodePoint => "invalid unicode code point"
  | .tooDeep => "recursion limit exceeded"
  | .invalidType found expected => "invalid type: " ++ found.describe ++ ", expected " ++ expected
  | .invalidValue found expected => "invalid value: " ++ found.describe ++ ", expected " ++ expected
  | .invalidLength length expected => s!"invalid length {length}, expected {expected}"
  | .duplicateField name => "duplicate field `" ++ name ++ "`"
  | .missingField name => "missing field `" ++ name ++ "`"
  | .malformedText reason => reason

/-- A cause with its place: `ahead` bytes into the unread text `rest`. -/
structure Fault where
  cause : Cause
  rest : List Char
  ahead : Nat
  deriving Repr, DecidableEq

/-- How many bytes a text takes. -/
def byteCount (cs : List Char) : Nat :=
  cs.foldl (fun n c => n + c.utf8Size) 0

/-- A place in a text. -/
structure Position where
  line : Nat
  column : Nat
  deriving Repr, DecidableEq

/-- The place `offset` bytes into `cs`, counted on from `here`. -/
def positionFrom (here : Position) : (offset : Nat) → List Char → Position
  | _, [] => here
  | offset, c :: cs =>
    if offset < c.utf8Size then ⟨here.line, here.column + offset⟩
    else if c = '\n' then positionFrom ⟨here.line + 1, 0⟩ (offset - 1) cs
    else positionFrom ⟨here.line, here.column + c.utf8Size⟩ (offset - c.utf8Size) cs

/-- The place `offset` bytes into `cs`. -/
def positionAt (cs : List Char) (offset : Nat) : Position :=
  positionFrom ⟨1, 0⟩ offset cs

/-- Where a fault in `text` lies. -/
def Fault.position (fault : Fault) (text : List Char) : Position :=
  let size := byteCount text
  positionAt text (min size (size - byteCount fault.rest + fault.ahead))

/-- The message for a fault in `text`. -/
def Fault.message (fault : Fault) (text : String) : String :=
  let place := fault.position text.toList
  s!"{fault.cause.message} at line {place.line} column {place.column}"

end CredentialRelay.Json
