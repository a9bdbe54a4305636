import CredentialRelay.Json.Skip
import CredentialRelay.Number.Word

/-!
# Decoding a JSON text into a typed value

A decoder reads one value of an expected kind from the start of a text. The text is read once,
from the left, and the first fault decides, be it one of syntax or of kind.

* `text`, `natural`, `dictionary`, `list`, `record` are the kinds of values; `orDefault` accepts
  `null` as the default of the other.
* A record is read from an object with its members in any order, or from a list with its fields in
  their order. Members of other names are passed over.
* Loops over members and elements consume a character in every round, so the length of the text
  bounds them.
-/

namespace CredentialRelay.Json

/-- Reads a value from the start of a text. -/
abbrev Decoder (α : Type) := List Char → Outcome α

/-! ## Scalars -/

/-- Reads a string. -/
def text : Decoder String := fun cs =>
  match skipBlanks cs with
  | '"' :: rest => readString rest
  | [] => .error (Cause.endInValue.next [])
  | rest => .error (mismatch "a string" rest)

/-- Reads a string and turns it into a value of its own form. -/
def textAs (expected : String) (parse : String → Except Cause α) : Decoder α := fun cs =>
  match skipBlanks cs with
  | '"' :: rest =>
    match readString rest with
    | .error fault => .error fault
    | .ok (s, rest) =>
      match parse s with
      | .ok value => .ok (value, rest)
      | .error cause => .error (cause.here rest)
  | [] => .error (Cause.endInValue.next [])
  | rest => .error (mismatch expected rest)

/-- Reads a number and turns it into a value, or names what was found. -/
def numberAs (expected : String) (parse : Number → Except Cause α) : Decoder α := fun cs =>
  let finish : Outcome Number → Outcome α
    | .error fault => .error fault
    | .ok (n, rest) =>
      match parse n with
      | .ok value => .ok (value, rest)
      | .error cause => .error (cause.here rest)
  match skipBlanks cs with
  | '-' :: rest => finish (readNumber true rest)
  | [] => .error (Cause.endInValue.next [])
  | c :: rest =>
    if c.isDigit then finish (readNumber false (c :: rest))
    else .error (mismatch expected (c :: rest))

/-- Reads a natural number below `bound`. -/
def natural (expected : String) (bound : Nat) : Decoder Nat :=
  numberAs expected fun
    | .natural n =>
      if n < bound then .ok n else .error (.invalidValue (.number (.natural n)) expected)
    | .negative n => .error (.invalidValue (.number (.negative n)) expected)
    | n => .error (.invalidType (.number n) expected)

/-- Reads a whole number of 64 bits with its sign. -/
def integer : Decoder Int :=
  numberAs "i64" fun
    | .natural n =>
      if n < Word.size63 then .ok n else .error (.invalidValue (.number (.natural n)) "i64")
    | .negative n => .ok (-n)
    | n => .error (.invalidType (.number n) "i64")

/-- Reads a truth value. -/
def boolean : Decoder Bool := fun cs =>
  match skipBlanks cs with
  | 't' :: rest => (readName ['r', 'u', 'e'] rest).map fun rest => (true, rest)
  | 'f' :: rest => (readName ['a', 'l', 's', 'e'] rest).map fun rest => (false, rest)
  | [] => .error (Cause.endInValue.next [])
  | rest => .error (mismatch "a boolean" rest)

/-- Reads `null` as `default`, and any other value as `decoder` does. -/
def orDefault (default : α) (decoder : Decoder α) : Decoder α := fun cs =>
  match skipBlanks cs with
  | 'n' :: rest => (readName ['u', 'l', 'l'] rest).map fun rest => (default, rest)
  | rest => decoder rest

/-- Reads `null` as nothing. -/
def optional (decoder : Decoder α) : Decoder (Option α) :=
  orDefault none fun cs => (decoder cs).map fun (value, rest) => (some value, rest)

/-! ## Members and elements -/

/-- Goes to the next key of an object, behind its opening quote, or leaves the object. -/
def nextKey (first : Bool) (cs : List Char) : Except Fault (Option (List Char) × List Char) :=
  match skipBlanks cs with
  | [] => .error (Cause.endInObject.next [])
  | c :: rest =>
    if c = '\x7d' then .ok (none, rest)
    else if first then
      if c = '"' then .ok (some rest, []) else .error (Cause.keyNotString.next (c :: rest))
    else if c = ',' then
      match skipBlanks rest with
      | '"' :: rest => .ok (some rest, [])
      | '\x7d' :: rest => .error (Cause.trailingComma.next ('\x7d' :: rest))
      | [] => .error (Cause.endInValue.next [])
      | rest => .error (Cause.keyNotString.next rest)
    else .error (Cause.expectedCommaOrBrace.next (c :: rest))

/-- Reads the members of an object: `member` takes what is known so far, the key, and the text
behind the key. -/
def membersFrom (member : σ → String → Decoder σ) : (fuel : Nat) → (first : Bool) → σ → Decoder σ
  | 0, _, s, cs => .ok (s, cs)
  | fuel + 1, first, s, cs =>
    match nextKey first cs with
    | .error fault => .error fault
    | .ok (none, rest) => .ok (s, rest)
    | .ok (some rest, _) =>
      match readString rest with
      | .error fault => .error fault
      | .ok (key, rest) =>
        match member s key rest with
        | .error fault => .error fault
        | .ok (s, rest) => membersFrom member fuel false s rest

/-- Reads the members of an object behind its opening brace. -/
def members (member : σ → String → Decoder σ) (s : σ) : Decoder σ := fun cs =>
  membersFrom member (cs.length + 1) true s cs

/-- Goes to the next element of a list, or finds its closing bracket. -/
def nextElement (first : Bool) (cs : List Char) : Except Fault (Option (List Char) × List Char) :=
  match skipBlanks cs with
  | [] => .error (Cause.endInList.next [])
  | c :: rest =>
    if c = ']' then .ok (none, c :: rest)
    else if first then .ok (some (c :: rest), [])
    else if c = ',' then
      match skipBlanks rest with
      | ']' :: rest => .error (Cause.trailingComma.next (']' :: rest))
      | [] => .error (Cause.endInValue.next [])
      | rest => .ok (some rest, [])
    else .error (Cause.expectedCommaOrBracket.next (c :: rest))

/-- Leaves a list whose elements have all been read. -/
def endList (cs : List Char) : Except Fault (List Char) :=
  match skipBlanks cs with
  | ']' :: rest => .ok rest
  | ',' :: rest =>
    match skipBlanks rest with
    | ']' :: rest => .error (Cause.trailingComma.next (']' :: rest))
    | rest => .error (Cause.trailingCharacters.next rest)
  | [] => .error (Cause.endInList.next [])
  | rest => .error (Cause.trailingCharacters.next rest)

/-- What is left of a list that is refused, once its end was looked for. -/
def behindList (cs : List Char) : List Char :=
  match skipBlanks cs with
  | ']' :: rest => rest
  | ',' :: rest => skipBlanks rest
  | rest => rest

/-- Reads the elements of a list; `read` are those so far, backwards. -/
def elementsFrom (element : Decoder α) : (fuel : Nat) → (first : Bool) → (read : List α) →
    Decoder (List α)
  | 0, _, read, cs => .ok (read.reverse, cs)
  | fuel + 1, first, read, cs =>
    match nextElement first cs with
    | .error fault => .error fault
    | .ok (none, rest) => (endList rest).map fun rest => (read.reverse, rest)
    | .ok (some rest, _) =>
      match element rest with
      | .error fault => .error fault
      | .ok (value, rest) => elementsFrom element fuel false (value :: read) rest

/-- Reads a list. -/
def list (element : Decoder α) : Decoder (List α) := fun cs =>
  match skipBlanks cs with
  | '[' :: rest => elementsFrom element (rest.length + 1) true [] rest
  | [] => .error (Cause.endInValue.next [])
  | rest => .error (mismatch "a sequence" rest)

/-- Reads an object with any keys: each member is added to what is known so far. -/
def dictionary (add : σ → String → α → σ) (start : σ) (value : Decoder α) : Decoder σ := fun cs =>
  let member (s : σ) (key : String) : Decoder σ := fun rest =>
    match readColon rest with
    | .error fault => .error fault
    | .ok rest => (value rest).map fun (v, rest) => (add s key v, rest)
  match skipBlanks cs with
  | '\x7b' :: rest => members member start rest
  | [] => .error (Cause.endInValue.next [])
  | rest => .error (mismatch "a map" rest)

/-- Reads any value and checks it in full; `budget` bounds the depth of brackets. -/
def anyValue : (budget : Nat) → Decoder Unit
  | budget, cs =>
    match skipBlanks cs with
    | [] => .error (Cause.endInValue.next [])
    | '[' :: rest =>
      match budget with
      | 0 => .error (Cause.tooDeep.next ('[' :: rest))
      | 1 => .error (Cause.tooDeep.next ('[' :: rest))
      | budget + 1 =>
        (elementsFrom (anyValue budget) (rest.length + 1) true [] rest).map fun r => ((), r.2)
    | '\x7b' :: rest =>
      match budget with
      | 0 => .error (Cause.tooDeep.next ('\x7b' :: rest))
      | 1 => .error (Cause.tooDeep.next ('\x7b' :: rest))
      | budget + 1 =>
        members (fun _ _ rest =>
          match readColon rest with
          | .error fault => .error fault
          | .ok rest => anyValue budget rest) () rest
    | rest => (readFound rest).map fun r => ((), r.2)

/-! ## Records -/

/-- A field of a record: its name, and how its value is read into the record. -/
structure Member (σ : Type) where
  name : String
  read : σ → Decoder σ

/-- How a record is read. -/
structure Shape (σ : Type) where
  /-- What the record is called in a fault about its kind. -/
  expected : String
  /-- The fields in their order. -/
  fields : List (Member σ)
  /-- Whether the record may also be a list of its fields. -/
  positional : Bool
  /-- Whether a repeated member is a fault; otherwise its last value counts. -/
  unique : Bool
  /-- The names of the fields that have no default. -/
  required : List String

/-- The fault of a member that is given twice: blanks behind its key, and a closing brace behind
these, count as read. -/
def duplicateFault (name : String) (cs : List Char) : Fault :=
  match skipBlanks cs with
  | '\x7d' :: rest => (Cause.duplicateField name).here rest
  | rest => (Cause.duplicateField name).here rest

/-- Reads one member of a record, of which the members `seen` are known. -/
def Shape.member (shape : Shape σ) (known : σ × List String) (key : String) :
    Decoder (σ × List String) := fun cs =>
  match shape.fields.find? fun field => field.name == key with
  | some field =>
    if shape.unique && known.2.contains key then .error (duplicateFault key cs)
    else
      match readColon cs with
      | .error fault => .error fault
      | .ok rest =>
        match field.read known.1 rest with
        | .error fault => .error fault
        | .ok (s, rest) => .ok ((s, key :: known.2), rest)
  | none =>
    match readColon cs with
    | .error fault => .error fault
    | .ok rest =>
      match skipValue rest with
      | .error fault => .error fault
      | .ok rest => .ok (known, rest)

/-- Reads the fields of a record from the elements of a list; `index` are read so far. -/
def Shape.positions (shape : Shape σ) : (index : Nat) → List (Member σ) → σ → Decoder σ
  | _, [], s, cs => (endList cs).map fun rest => (s, rest)
  | index, field :: fields, s, cs =>
    match nextElement (index == 0) cs with
    | .error fault => .error fault
    | .ok (none, rest) =>
      if (field :: fields).any fun field => shape.required.contains field.name then
        .error ((Cause.invalidLength index
          s!"{shape.expected} with {shape.fields.length} elements").here (rest.drop 1))
      else (endList rest).map fun rest => (s, rest)
    | .ok (some rest, _) =>
      match field.read s rest with
      | .error fault => .error fault
      | .ok (s, rest) => shape.positions (index + 1) fields s rest

/-- Reads a record, starting from `start`. -/
def Shape.read (shape : Shape σ) (start : σ) : Decoder σ := fun cs =>
  match skipBlanks cs with
  | [] => .error (Cause.endInValue.next [])
  | '[' :: rest =>
    if shape.positional then shape.positions 0 shape.fields start rest
    else .error ((Cause.invalidType .list shape.expected).here (behindList rest))
  | '\x7b' :: rest =>
    match members shape.member (start, []) rest with
    | .error fault => .error fault
    | .ok ((s, seen), rest) =>
      match shape.required.find? fun name => !seen.contains name with
      | some name => .error ((Cause.missingField name).here rest)
      | none => .ok (s, rest)
  | rest => .error (mismatch shape.expected rest)

/-! ## Whole texts -/

/-- Reads a text that holds one value and nothing else. -/
def decode (decoder : Decoder α) (text : String) : Except Fault α :=
  match decoder text.toList with
  | .error fault => .error fault
  | .ok (value, rest) =>
    match skipBlanks rest with
    | [] => .ok value
    | rest => .error (Cause.trailingCharacters.next rest)

end CredentialRelay.Json
