import CredentialRelay.Cron.Field
import CredentialRelay.Number.Word
import CredentialRelay.Text.Natural

/-!
# The grammar of cron expressions

An expression is a sequence of six or seven fields. A field is a list of items with commas between
them.

* Four blanks count: space, tab, carriage return and line feed. They may stand around every number
  and every name and around every field, and around nothing else. No blank is needed between two
  fields.
* The question mark stands for all values in the two fields that are about days.
* Each reader takes the longest form that is there. A comma that no item follows is left unread.
* The first six fields are resolved as soon as they are read. If the seventh cannot be read or
  resolved, it is left unread, so that the whole text is no expression.
-/

namespace CredentialRelay.Cron

/-- Reads something from the start of a text. -/
abbrev Reader (α : Type) := List Char → Option (α × List Char)

/-- The blanks that count. -/
def isSpace (c : Char) : Bool :=
  c == ' ' || c == '\t' || c == '\r' || c == '\n'

/-- The text without the blanks at its start. -/
def skipSpaces (cs : List Char) : List Char :=
  cs.dropWhile isSpace

/-- Reads the longest run of characters in a class, which may not be empty, with the blanks
around it. -/
def run (p : Char → Bool) : Reader (List Char) := fun cs =>
  let cs := skipSpaces cs
  let taken := cs.takeWhile p
  if taken.isEmpty then none else some (taken, skipSpaces (cs.dropWhile p))

/-- Reads a number of 32 bits. -/
def number : Reader Nat := fun cs =>
  match run Char.isDigit cs with
  | some (digits, rest) =>
    let value := Text.digitsValue 0 digits
    if value < Word.size32 then some (value, rest) else none
  | none => none

/-- Reads a name. -/
def word : Reader String := fun cs =>
  (run Char.isAlpha cs).map fun (letters, rest) => (String.ofList letters, rest)

/-- Reads one character. -/
def mark (c : Char) (cs : List Char) : Option (List Char) :=
  match cs with
  | d :: rest => if d = c then some rest else none
  | [] => none

/-- Reads two things of one kind with a hyphen between them. -/
def pair (part : Reader α) : Reader (α × α) := fun cs => do
  let (first, cs) ← part cs
  let cs ← mark '-' cs
  let (last, cs) ← part cs
  return ((first, last), cs)

/-- Reads an extent; `day` tells whether the question mark is one. -/
def extent (day : Bool) : Reader Extent := fun cs =>
  match cs with
  | '*' :: rest => some (.all, rest)
  | cs =>
    match mark '?' cs with
    | some rest => if day then some (.all, rest) else none
    | none =>
      match pair number cs with
      | some ((first, last), rest) => some (.range first last, rest)
      | none =>
        match number cs with
        | some (n, rest) => some (.point n, rest)
        | none => (pair word cs).map fun ((first, last), rest) => (.namedRange first last, rest)

/-- Reads a step behind an extent. -/
def step (cs : List Char) : Option (Nat × List Char) :=
  (mark '/' cs).bind number

/-- Reads an item. -/
def item (day : Bool) : Reader Item := fun cs =>
  match extent day cs with
  | some (extent, rest) =>
    match step rest with
    | some (n, rest) => some (.stepped extent n, rest)
    | none => some (.plain extent, rest)
  | none => (word cs).map fun (name, rest) => (.named name, rest)

/-- Reads the items that follow an item; there are no more of them than characters. -/
def moreItems (day : Bool) : (fuel : Nat) → List Char → List Item × List Char
  | 0, cs => ([], cs)
  | fuel + 1, cs =>
    match (mark ',' cs).bind (item day) with
    | some (first, rest) =>
      let (items, rest) := moreItems day fuel rest
      (first :: items, rest)
    | none => ([], cs)

/-- Reads a field. -/
def field (day : Bool) : Reader (List Item) := fun cs =>
  match item day (skipSpaces cs) with
  | some (first, rest) =>
    let (items, rest) := moreItems day rest.length rest
    some (first :: items, skipSpaces rest)
  | none => none

/-- Reads and resolves the field of a part. -/
def partField (part : Part) (cs : List Char) : Except Fault (List Nat × List Char) :=
  match field (part == .day || part == .weekday) cs with
  | some (items, rest) => (resolve part items).map fun values => (values, rest)
  | none => .error .malformed

end CredentialRelay.Cron

namespace CredentialRelay

/-- When a schedule fires: the values that each part of the time may have, in ascending order. -/
structure Cron where
  seconds : List Nat
  minutes : List Nat
  hours : List Nat
  days : List Nat
  months : List Nat
  weekdays : List Nat
  years : List Nat
  deriving Repr, DecidableEq

namespace Cron

/-- Reads and resolves an expression. -/
def ofChars (cs : List Char) : Except Fault Cron := do
  let (seconds, cs) ← partField .second cs
  let (minutes, cs) ← partField .minute cs
  let (hours, cs) ← partField .hour cs
  let (days, cs) ← partField .day cs
  let (months, cs) ← partField .month cs
  let (weekdays, cs) ← partField .weekday cs
  let (years, cs) := match partField .year cs with
    | .ok read => read
    | .error _ => (Part.year.values, cs)
  if cs.isEmpty then return ⟨seconds, minutes, hours, days, months, weekdays, years⟩
  else throw .malformed

/-- Reads and resolves an expression. -/
def parse (text : String) : Except Fault Cron :=
  ofChars text.toList

end Cron

end CredentialRelay
