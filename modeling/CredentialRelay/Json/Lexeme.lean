import CredentialRelay.Json.Fault
import CredentialRelay.Number.Word

/-!
# Lexical parts of a JSON text

Readers of blanks, names, numbers and strings. Every reader takes the unread text and returns
what it read together with the text after it.

* A string is read character by character with a state for the escape it is in; the first
  character that cannot follow is the fault.
* A number keeps its leading digits as long as they stay below `2 ^ 64`. Further digits before the
  point only raise the power of ten and further digits behind it are dropped, so a long number is
  rounded twice.
* An escape of four digits is judged by the four bytes behind it.
-/

namespace CredentialRelay.Json

/-- What a reader returns: a value and the unread text, or a fault. -/
abbrev Outcome (α : Type) := Except Fault (α × List Char)

/-- The fault at the place just before the unread text. -/
def Cause.here (cause : Cause) (rest : List Char) : Fault :=
  ⟨cause, rest, 0⟩

/-- The fault at the place just behind the first byte of the unread text. -/
def Cause.next (cause : Cause) (rest : List Char) : Fault :=
  ⟨cause, rest, 1⟩

/-- The four characters that may stand between the parts of a text. -/
def isBlank (c : Char) : Bool :=
  c == ' ' || c == '\n' || c == '\t' || c == '\r'

/-- The text after the blanks at its start. -/
def skipBlanks (cs : List Char) : List Char :=
  cs.dropWhile isBlank

/-- Reads the rest of a name. -/
def readName : List Char → List Char → Except Fault (List Char)
  | [], cs => .ok cs
  | _ :: _, [] => .error (Cause.endInValue.here [])
  | n :: name, c :: cs =>
    if c = n then readName name cs else .error (Cause.expectedIdent.next (c :: cs))

/-! ## Numbers -/

/-- The whole number below `2 ^ 64` that the longest part of the digits gives, read on from
`significand`, and the digits left. -/
def absorb (significand : Nat) : List Char → Nat × List Char
  | [] => (significand, [])
  | c :: cs =>
    let next := significand * 10 + Text.digitValue c
    if next < Word.size64 then absorb next cs else (significand, c :: cs)

/-- The greatest finite power of ten, rounded. -/
def greatestPower : Binary64 :=
  (Binary64.ofNat? (Nat.pow 10 308)).getD ⟨0, 0⟩

/-- The number `x · 10 ^ exponent`, if it is not too large. Powers below `10 ^ -308` are reached by
dividing more than once. -/
def scale (x : Binary64) : (fuel : Nat) → (exponent : Int) → Option Binary64
  | 0, _ => some ⟨0, Binary64.minExponent⟩
  | fuel + 1, exponent =>
    if exponent.natAbs ≤ 308 then
      (Binary64.ofNat? (Nat.pow 10 exponent.natAbs)).bind fun power =>
        if 0 ≤ exponent then x.mul? power else x.div? power
    else if x.isZero then some x
    else if 0 ≤ exponent then none
    else (x.div? greatestPower).bind fun y => scale y fuel (exponent + 308)

/-- The number `± significand · 10 ^ exponent`, with the unread text. -/
def floating (negative : Bool) (significand : Nat) (exponent : Int) (rest : List Char) :
    Outcome Number :=
  match (Binary64.ofNat? significand).bind fun x => scale x 4 exponent with
  | some x => .ok (.floating negative x, rest)
  | none => .error (Cause.numberOutOfRange.here rest)

/-- The digits of an exponent read on from `value`: the exponent, or the text at which it grew
beyond 32 bits. -/
def readExponentDigits (value : Nat) : List Char → Except (List Char) (Nat × List Char)
  | [] => .ok (value, [])
  | c :: cs =>
    if c.isDigit then
      let next := value * 10 + Text.digitValue c
      if next < Word.size31 then readExponentDigits next cs else .error cs
    else .ok (value, c :: cs)

/-- Reads on after the `e` of a number. -/
def readExponent (negative : Bool) (significand : Nat) (exponent : Int) (cs : List Char) :
    Outcome Number :=
  let (down, cs) : Bool × List Char :=
    match cs with
    | '+' :: rest => (false, rest)
    | '-' :: rest => (true, rest)
    | rest => (false, rest)
  match cs with
  | [] => .error (Cause.endInValue.here [])
  | c :: rest =>
    if c.isDigit then
      match readExponentDigits (Text.digitValue c) rest with
      | .ok (value, rest) =>
        floating negative significand (if down then exponent - value else exponent + value) rest
      | .error rest =>
        if significand ≠ 0 ∧ down = false then .error (Cause.numberOutOfRange.here rest)
        else .ok (.floating negative ⟨0, Binary64.minExponent⟩, rest.dropWhile Char.isDigit)
    else .error (Cause.invalidNumber.next (c :: rest))

/-- Reads on after the point of a number. -/
def readFraction (negative : Bool) (significand : Nat) (exponent : Int) (cs : List Char) :
    Outcome Number :=
  let digits := cs.takeWhile Char.isDigit
  let rest := cs.dropWhile Char.isDigit
  if digits.isEmpty then
    .error ((if rest.isEmpty then Cause.endInValue else Cause.invalidNumber).next rest)
  else
    let (significand, left) := absorb significand digits
    let exponent := exponent - (digits.length - left.length : Nat)
    match rest with
    | 'e' :: rest => readExponent negative significand exponent rest
    | 'E' :: rest => readExponent negative significand exponent rest
    | rest => floating negative significand exponent rest

/-- The whole number with its sign; beyond the whole numbers that are kept it is rounded. -/
def whole (negative : Bool) (n : Nat) (rest : List Char) : Outcome Number :=
  if negative = false then .ok (.natural n, rest)
  else if n = 0 ∨ Word.size63 < n then floating true n 0 rest
  else .ok (.negative n, rest)

/-- Reads on after the digits before the point; `dropped` of them are not in `significand`. -/
def readNumberTail (negative : Bool) (significand dropped : Nat) : List Char → Outcome Number
  | '.' :: rest => readFraction negative significand dropped rest
  | 'e' :: rest => readExponent negative significand dropped rest
  | 'E' :: rest => readExponent negative significand dropped rest
  | rest =>
    if dropped = 0 then whole negative significand rest
    else floating negative significand dropped rest

/-- Reads a number after its sign. -/
def readNumber (negative : Bool) : List Char → Outcome Number
  | [] => .error (Cause.endInValue.here [])
  | c :: rest =>
    if c = '0' then
      match rest with
      | d :: _ =>
        if d.isDigit then .error (Cause.invalidNumber.next rest)
        else readNumberTail negative 0 0 rest
      | [] => readNumberTail negative 0 0 []
    else if c.isDigit then
      let (significand, left) := absorb (Text.digitValue c) (rest.takeWhile Char.isDigit)
      readNumberTail negative significand left.length (rest.dropWhile Char.isDigit)
    else .error (Cause.invalidNumber.next (c :: rest))

/-! ## Strings -/

/-- The value of a hexadecimal digit. -/
def hexValue? (c : Char) : Option Nat :=
  if '0' ≤ c ∧ c ≤ '9' then some (c.toNat - '0'.toNat)
  else if 'a' ≤ c ∧ c ≤ 'f' then some (c.toNat - 'a'.toNat + 10)
  else if 'A' ≤ c ∧ c ≤ 'F' then some (c.toNat - 'A'.toNat + 10)
  else none

/-- The fault of four digits that are none: the text ends too early, or they are wrong. -/
def hexFault (start : List Char) : Fault :=
  if byteCount start < 4 then Cause.endInString.here [] else ⟨.invalidEscape, start, 4⟩

/-- The character of a simple escape. -/
def simpleEscape? : Char → Option Char
  | '"' => some '"'
  | '\\' => some '\\'
  | '/' => some '/'
  | 'b' => some '\x08'
  | 'f' => some '\x0c'
  | 'n' => some '\n'
  | 'r' => some '\r'
  | 't' => some '\t'
  | _ => none

/-- Where in a string a reader is. -/
inductive StringState where
  /-- Between characters. -/
  | plain
  /-- Behind a backslash. -/
  | escape
  /-- In the digits of an escape: `count` digits with the value `value` are read since `start`;
  `high` is the first half of a surrogate pair. -/
  | hex (high : Option Nat) (start : List Char) (count value : Nat)
  /-- Behind the first half of a surrogate pair. -/
  | pairBackslash (high : Nat)
  /-- Behind the first half of a surrogate pair and a backslash. -/
  | pairU (high : Nat)

/-- What four digits say: a character, or the first half of a surrogate pair. -/
def unit (high : Option Nat) (value : Nat) : Except Cause (Char ⊕ Nat) :=
  let isLow : Bool := decide (0xDC00 ≤ value) && decide (value ≤ 0xDFFF)
  match high with
  | some h =>
    if isLow then .ok (.inl (Char.ofNat (0x10000 + (h - 0xD800) * 0x400 + (value - 0xDC00))))
    else .error .loneSurrogate
  | none =>
    if isLow then .error .loneSurrogate
    else if 0xD800 ≤ value ∧ value ≤ 0xDBFF then .ok (.inr value)
    else .ok (.inl (Char.ofNat value))

/-- Reads a string behind its opening quote; `read` are the characters so far, backwards. -/
def readStringFrom : StringState → (read : List Char) → List Char → Outcome (List Char)
  | .plain, _, [] => .error (Cause.endInString.here [])
  | .plain, read, c :: cs =>
    if c = '"' then .ok (read.reverse, cs)
    else if c = '\\' then readStringFrom .escape read cs
    else if c.toNat < 0x20 then .error (Cause.controlCharacter.here cs)
    else readStringFrom .plain (c :: read) cs
  | .escape, _, [] => .error (Cause.endInString.here [])
  | .escape, read, c :: cs =>
    match simpleEscape? c with
    | some d => readStringFrom .plain (d :: read) cs
    | none =>
      if c = 'u' then readStringFrom (.hex none cs 0 0) read cs
      else .error (Cause.invalidEscape.next (c :: cs))
  | .hex _ start _ _, _, [] => .error (hexFault start)
  | .hex high start count value, read, c :: cs =>
    match hexValue? c with
    | none => .error (hexFault start)
    | some d =>
      let value := value * 16 + d
      if count < 3 then readStringFrom (.hex high start (count + 1) value) read cs
      else
        match unit high value with
        | .ok (.inl d) => readStringFrom .plain (d :: read) cs
        | .ok (.inr h) => readStringFrom (.pairBackslash h) read cs
        | .error cause => .error (cause.here cs)
  | .pairBackslash _, _, [] => .error (Cause.endInString.here [])
  | .pairBackslash high, read, c :: cs =>
    if c = '\\' then readStringFrom (.pairU high) read cs
    else .error (Cause.unfinishedSurrogate.next (c :: cs))
  | .pairU _, _, [] => .error (Cause.endInString.here [])
  | .pairU high, read, c :: cs =>
    if c = 'u' then readStringFrom (.hex (some high) cs 0 0) read cs
    else .error (Cause.unfinishedSurrogate.next (c :: cs))

/-- Reads a string behind its opening quote. -/
def readString (cs : List Char) : Outcome String :=
  (readStringFrom .plain [] cs).map fun (read, rest) => (String.ofList read, rest)

/-! ## Kinds of values -/

/-- What the value at the start of a text is. A list or an object is not read. -/
def readFound : List Char → Outcome Found
  | 'n' :: rest => (readName ['u', 'l', 'l'] rest).map fun rest => (.null, rest)
  | 't' :: rest => (readName ['r', 'u', 'e'] rest).map fun rest => (.boolean true, rest)
  | 'f' :: rest => (readName ['a', 'l', 's', 'e'] rest).map fun rest => (.boolean false, rest)
  | '-' :: rest => (readNumber true rest).map fun (n, rest) => (.number n, rest)
  | '"' :: rest => (readString rest).map fun (s, rest) => (.text s, rest)
  | '[' :: rest => .ok (.list, '[' :: rest)
  | '\x7b' :: rest => .ok (.object, '\x7b' :: rest)
  | [] => .error (Cause.expectedValue.next [])
  | c :: rest =>
    if c.isDigit then (readNumber false (c :: rest)).map fun (n, rest) => (.number n, rest)
    else .error (Cause.expectedValue.next (c :: rest))

/-- The fault of a value that is not of the expected kind. -/
def mismatch (expected : String) (cs : List Char) : Fault :=
  match readFound cs with
  | .ok (found, rest) => (Cause.invalidType found expected).here rest
  | .error fault => fault

end CredentialRelay.Json
