import CredentialRelay.Json.Lexeme

/-!
# Values that are passed over

A member that nobody asked for is read for its syntax only. Such reading is lenient where it does
not need the value: numbers may be of any size, and escapes of surrogates need no partner.

`skipValue` keeps the open brackets in a list and reads one step at a time. Every step but one
consumes a character, and that one (entering an element) is never followed by another of its
kind, so twice the length of the text bounds the steps.
-/

namespace CredentialRelay.Json

/-- A bracket that is open. -/
inductive Bracket where
  | list
  | object
  deriving Repr, DecidableEq

/-! ## Numbers and strings -/

/-- Passes over the digits of an exponent behind its `e`. -/
def skipExponent (cs : List Char) : Except Fault (List Char) :=
  let cs := match cs with
    | '+' :: rest => rest
    | '-' :: rest => rest
    | rest => rest
  match cs with
  | [] => .error (Cause.invalidNumber.here [])
  | c :: rest =>
    if c.isDigit then .ok (rest.dropWhile Char.isDigit)
    else .error (Cause.invalidNumber.next (c :: rest))

/-- Passes over what may follow the digits before the point. -/
def skipNumberTail : List Char → Except Fault (List Char)
  | '.' :: rest =>
    let after := rest.dropWhile Char.isDigit
    if (rest.takeWhile Char.isDigit).isEmpty then .error (Cause.invalidNumber.next after)
    else
      match after with
      | 'e' :: rest => skipExponent rest
      | 'E' :: rest => skipExponent rest
      | rest => .ok rest
  | 'e' :: rest => skipExponent rest
  | 'E' :: rest => skipExponent rest
  | rest => .ok rest

/-- Passes over a number after its sign. -/
def skipNumber : List Char → Except Fault (List Char)
  | [] => .error (Cause.invalidNumber.here [])
  | c :: rest =>
    if c = '0' then
      match rest with
      | d :: _ =>
        if d.isDigit then .error (Cause.invalidNumber.next rest) else skipNumberTail rest
      | [] => .ok []
    else if c.isDigit then skipNumberTail (rest.dropWhile Char.isDigit)
    else .error (Cause.invalidNumber.next (c :: rest))

/-- Where in a string that is passed over a reader is: between characters, behind a backslash, or
`count` digits into an escape whose digits begin at `start`. -/
inductive SkipState where
  | plain
  | escape
  | hex (start : List Char) (count : Nat)

/-- Passes over a string behind its opening quote. -/
def skipStringFrom : SkipState → List Char → Except Fault (List Char)
  | .plain, [] => .error (Cause.endInString.here [])
  | .plain, c :: cs =>
    if c = '"' then .ok cs
    else if c = '\\' then skipStringFrom .escape cs
    else if c.toNat < 0x20 then .error (Cause.controlCharacter.here (c :: cs))
    else skipStringFrom .plain cs
  | .escape, [] => .error (Cause.endInString.here [])
  | .escape, c :: cs =>
    if (simpleEscape? c).isSome then skipStringFrom .plain cs
    else if c = 'u' then skipStringFrom (.hex cs 0) cs
    else .error (Cause.invalidEscape.next (c :: cs))
  | .hex start _, [] => .error (hexFault start)
  | .hex start count, c :: cs =>
    if (hexValue? c).isSome then
      skipStringFrom (if count < 3 then .hex start (count + 1) else .plain) cs
    else .error (hexFault start)

/-- Passes over a string behind its opening quote. -/
def skipString (cs : List Char) : Except Fault (List Char) :=
  skipStringFrom .plain cs

/-! ## Values -/

/-- Passes over a value that opens no bracket. -/
def skipScalar : List Char → Except Fault (List Char)
  | 'n' :: rest => readName ['u', 'l', 'l'] rest
  | 't' :: rest => readName ['r', 'u', 'e'] rest
  | 'f' :: rest => readName ['a', 'l', 's', 'e'] rest
  | '-' :: rest => skipNumber rest
  | '"' :: rest => skipString rest
  | [] => .error (Cause.endInValue.next [])
  | c :: rest =>
    if c.isDigit then skipNumber (c :: rest) else .error (Cause.expectedValue.next (c :: rest))

/-- Passes over the colon between a key and its value. -/
def readColon (cs : List Char) : Except Fault (List Char) :=
  match skipBlanks cs with
  | ':' :: rest => .ok rest
  | [] => .error (Cause.endInObject.next [])
  | rest => .error (Cause.expectedColon.next rest)

/-- Passes over the start of an element: nothing in a list, a key and its colon in an object. -/
def skipKey : Bracket → List Char → Except Fault (List Char)
  | .list, cs => .ok cs
  | .object, cs =>
    match skipBlanks cs with
    | '"' :: rest => skipString rest >>= readColon
    | [] => .error (Cause.endInObject.next [])
    | rest => .error (Cause.keyNotString.next rest)

/-- Whether a character closes a bracket. -/
def Bracket.closedBy : Bracket → Char → Bool
  | .list, c => c == ']'
  | .object, c => c == '\x7d'

/-- The cause when a text ends inside a bracket. -/
def Bracket.atEnd : Bracket → Cause
  | .list => .endInList
  | .object => .endInObject

/-- The cause when neither a comma nor the closing bracket follows an element. -/
def Bracket.unseparated : Bracket → Cause
  | .list => .expectedCommaOrBracket
  | .object => .expectedCommaOrBrace

/-- What is to be passed over next. -/
inductive SkipStep where
  /-- A value. -/
  | value
  /-- What follows an opening bracket. -/
  | first
  /-- What follows an element. -/
  | more

/-- Passes over values with the brackets `open` around them, innermost first. -/
def skipFrom : (fuel : Nat) → SkipStep → (stack : List Bracket) → List Char →
    Except Fault (List Char)
  | 0, _, _, cs => .ok cs
  | fuel + 1, .value, stack, cs =>
    match skipBlanks cs with
    | '[' :: rest => skipFrom fuel .first (.list :: stack) rest
    | '\x7b' :: rest => skipFrom fuel .first (.object :: stack) rest
    | rest =>
      match skipScalar rest with
      | .ok rest => skipFrom fuel .more stack rest
      | .error fault => .error fault
  | _ + 1, _, [], cs => .ok cs
  | fuel + 1, .first, bracket :: stack, cs =>
    match skipBlanks cs with
    | [] => .error (bracket.atEnd.next [])
    | c :: rest =>
      if bracket.closedBy c then skipFrom fuel .more stack rest
      else
        match skipKey bracket (c :: rest) with
        | .ok rest => skipFrom fuel .value (bracket :: stack) rest
        | .error fault => .error fault
  | fuel + 1, .more, bracket :: stack, cs =>
    match skipBlanks cs with
    | [] => .error (bracket.atEnd.next [])
    | c :: rest =>
      if c = ',' then
        match skipKey bracket rest with
        | .ok rest => skipFrom fuel .value (bracket :: stack) rest
        | .error fault => .error fault
      else if bracket.closedBy c then skipFrom fuel .more stack rest
      else .error (bracket.unseparated.next (c :: rest))

/-- Passes over one value. -/
def skipValue (cs : List Char) : Except Fault (List Char) :=
  skipFrom (2 * cs.length + 2) .value [] cs

end CredentialRelay.Json
