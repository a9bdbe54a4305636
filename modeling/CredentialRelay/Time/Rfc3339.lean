import CredentialRelay.Number.Word
import CredentialRelay.Text.Blank
import CredentialRelay.Text.Natural
import CredentialRelay.Time.Instant

/-!
# Reading timestamps

Timestamps are read as RFC 3339 writes them, with some freedom: blanks may stand before the parts
and the marks between them, a number may be short, a year may have a sign, the zone may be the
letters `UTC`, and the mark inside an offset may be left out.

The text is read from the left and the first fault decides.

`Timestamp.parseStrict` takes none of these freedoms. So a year that is written with a sign is read
by `Timestamp.parse` only.
-/

namespace CredentialRelay.Timestamp

open Text

/-- Why a text is no timestamp. -/
inductive Fault where
  | tooShort
  | tooLong
  | invalid
  | outOfRange
  deriving Repr, DecidableEq

/-- The wording of each fault. -/
def Fault.message : Fault → String
  | .tooShort => "premature end of input"
  | .tooLong => "trailing input"
  | .invalid => "input contains invalid characters"
  | .outOfRange => "input is out of range"

/-- Reads a part from the start of a text. -/
abbrev Reader (α : Type) := List Char → Except Fault (α × List Char)

/-- The text without the blanks at its start. -/
def skipBlanks (cs : List Char) : List Char :=
  cs.dropWhile isBlank

/-- Reads a number of 64 bits that has at least one digit; a width bounds how many are read. -/
def number (width : Option Nat) : Reader Nat := fun cs =>
  let all := cs.takeWhile Char.isDigit
  let digits := match width with
    | some w => all.take w
    | none => all
  let value := digitsValue 0 digits
  if cs.isEmpty then .error .tooShort
  else if digits.isEmpty then .error .invalid
  else if value < Word.size63 then .ok (value, cs.drop digits.length)
  else .error .outOfRange

/-- Reads a number of at most two digits between two bounds, blanks before it being skipped. -/
def twoDigits (low high : Nat) : Reader Nat := fun cs =>
  match number (some 2) (skipBlanks cs) with
  | .error fault => .error fault
  | .ok (n, rest) => if low ≤ n ∧ n ≤ high then .ok (n, rest) else .error .outOfRange

/-- Reads a year, which has at most four digits unless it has a sign. -/
def year : Reader Int := fun cs =>
  let bounded : Except Fault (Int × List Char) → Except Fault (Int × List Char)
    | .ok (n, rest) => if n.natAbs < Word.size31 then .ok (n, rest) else .error .outOfRange
    | .error fault => .error fault
  match skipBlanks cs with
  | '-' :: rest => bounded ((number none rest).map fun (n, rest) => (-n, rest))
  | '+' :: rest => bounded ((number none rest).map fun (n, rest) => (n, rest))
  | rest => bounded ((number (some 4) rest).map fun (n, rest) => (n, rest))

/-- Reads a mark, blanks before it being skipped. -/
def mark (c : Char) (cs : List Char) : Except Fault (List Char) :=
  match skipBlanks cs with
  | [] => .error .tooShort
  | d :: rest => if d = c then .ok rest else .error .invalid

/-- Reads the letter or the blank between a date and a time. -/
def divider : List Char → Except Fault (List Char)
  | [] => .error .tooShort
  | c :: rest => if c = 't' ∨ c = 'T' ∨ c = ' ' then .ok rest else .error .invalid

/-- Reads a fraction of a second in nanoseconds, if there is one. Digits beyond the ninth are
dropped. -/
def fraction : Reader Nat
  | '.' :: cs =>
    match number (some 9) cs with
    | .error fault => .error fault
    | .ok (n, rest) =>
      .ok (n * Nat.pow 10 (9 - (cs.length - rest.length)), rest.dropWhile Char.isDigit)
  | cs => .ok (0, cs)

/-- Reads the two digits of the minutes of an offset. -/
def offsetMinutes : Reader Nat
  | a :: b :: rest =>
    if a.isDigit ∧ b.isDigit then
      let n := digitsValue 0 [a, b]
      if n < 60 then .ok (n, rest) else .error .outOfRange
    else .error .invalid
  | _ => .error .tooShort

/-- Reads an offset behind its sign, in minutes. -/
def offsetDigits : Reader Nat
  | a :: b :: rest =>
    if a.isDigit ∧ b.isDigit then
      match offsetMinutes (rest.dropWhile fun c => c == ':' || isBlank c) with
      | .error fault => .error fault
      | .ok (minutes, rest) => .ok (digitsValue 0 [a, b] * 60 + minutes, rest)
    else .error .invalid
  | _ => .error .tooShort

/-- Reads a zone: how many minutes the local time is ahead. -/
def zone : Reader Int := fun cs =>
  match cs with
  | [] => .error .tooShort
  | c :: rest =>
    if (cs.take 3).map Char.toUpper = ['U', 'T', 'C'] then .ok (0, cs.drop 3)
    else if c = 'Z' ∨ c = 'z' then .ok (0, rest)
    else if c = '+' then (offsetDigits rest).map fun (n, rest) => (n, rest)
    else if c = '-' ∨ c = '−' then (offsetDigits rest).map fun (n, rest) => (-n, rest)
    else .error .invalid

/-- The instant of a local date and time. A second 60 is a leap second. -/
def assemble (date : Date) (hour minute second nanos : Nat) (offset : Int) :
    Except Fault Instant :=
  let leap := if second = 60 then 1 else 0
  let here : Instant :=
    ⟨date.number * 86400 + (hour * 3600 + minute * 60 + (second - leap) : Nat),
      leap * Instant.nanosPerSecond + nanos⟩
  let t : Instant := ⟨here.seconds - offset * 60, here.nanos⟩
  if date.isValid && decide (offset.natAbs < 1440) && here.isInBounds && t.isInBounds then .ok t
  else .error .outOfRange

/-- Reads a timestamp. -/
def parse (text : String) : Except Fault Instant := do
  let (y, cs) ← year text.toList
  let cs ← mark '-' cs
  let (m, cs) ← twoDigits 1 12 cs
  let cs ← mark '-' cs
  let (d, cs) ← twoDigits 1 31 cs
  let cs ← divider cs
  let (hour, cs) ← twoDigits 0 23 cs
  let cs ← mark ':' cs
  let (minute, cs) ← twoDigits 0 59 cs
  let cs ← mark ':' cs
  let (second, cs) ← twoDigits 0 60 cs
  let (nanos, cs) ← fraction cs
  let (offset, cs) ← zone (skipBlanks cs)
  if (skipBlanks cs).isEmpty then assemble ⟨y, m, d⟩ hour minute second nanos offset
  else throw .tooLong

/-! ## Strict timestamps -/

/-- Reads a number between two bounds that has exactly so many digits. -/
def exactDigits (width low high : Nat) : Reader Nat := fun cs =>
  let digits := cs.take width
  let value := digitsValue 0 digits
  if cs.length < width then .error .tooShort
  else if digits.all Char.isDigit = false then .error .invalid
  else if low ≤ value ∧ value ≤ high then .ok (value, cs.drop width)
  else .error .outOfRange

/-- Reads a mark. -/
def exactMark (c : Char) : List Char → Except Fault (List Char)
  | [] => .error .tooShort
  | d :: rest => if d = c then .ok rest else .error .invalid

/-- Reads an offset with a colon behind its sign, in minutes. -/
def exactOffset : Reader Nat
  | a :: b :: rest =>
    if a.isDigit ∧ b.isDigit then
      match exactMark ':' rest with
      | .error fault => .error fault
      | .ok rest =>
        (offsetMinutes rest).map fun (minutes, rest) =>
          (digitsValue 0 [a, b] * 60 + minutes, rest)
    else .error .invalid
  | _ => .error .tooShort

/-- Reads a zone that is the letter `Z` or an offset. -/
def exactZone : Reader Int
  | [] => .error .tooShort
  | c :: rest =>
    if c = 'Z' ∨ c = 'z' then .ok (0, rest)
    else if c = '+' then (exactOffset rest).map fun (n, rest) => (n, rest)
    else if c = '-' ∨ c = '−' then (exactOffset rest).map fun (n, rest) => (-n, rest)
    else .error .invalid

/-- Reads a timestamp just as RFC 3339 writes it. -/
def parseStrict (text : String) : Except Fault Instant := do
  let (y, cs) ← exactDigits 4 0 9999 text.toList
  let cs ← exactMark '-' cs
  let (m, cs) ← exactDigits 2 1 12 cs
  let cs ← exactMark '-' cs
  let (d, cs) ← exactDigits 2 1 31 cs
  let cs ← divider cs
  let (hour, cs) ← exactDigits 2 0 23 cs
  let cs ← exactMark ':' cs
  let (minute, cs) ← exactDigits 2 0 59 cs
  let cs ← exactMark ':' cs
  let (second, cs) ← exactDigits 2 0 60 cs
  let (nanos, cs) ← fraction cs
  let (offset, cs) ← exactZone cs
  if cs.isEmpty then assemble ⟨y, m, d⟩ hour minute second nanos offset else throw .tooLong

end CredentialRelay.Timestamp
