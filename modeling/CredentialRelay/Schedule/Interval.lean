import CredentialRelay.Failure
import CredentialRelay.Number.Word
import CredentialRelay.Text.DecimalDigit
import CredentialRelay.Text.Lowercase
import CredentialRelay.Text.Natural

/-!
# Intervals

An interval is a sum of groups, each a number and a unit: `1h30m`, `500ms`.

* Letters may be in any case. A group is a run of decimal digits followed by a unit; a run with
  digits other than the ten ASCII ones has the shape of a number and is none.
* The sum is kept in milliseconds and stops at `2 ^ 64` seconds less one millisecond. One group of
  whole seconds stops at `2 ^ 64 - 1` seconds.
* An interval is positive.

Models `parse_interval` (`Interval.parse`).
-/

namespace CredentialRelay

/-- A unit of time. -/
inductive TimeUnit where
  | millisecond
  | second
  | minute
  | hour
  | day
  deriving Repr, DecidableEq

namespace TimeUnit

/-- How many milliseconds a unit has. -/
def millis : TimeUnit → Nat
  | .millisecond => 1
  | .second => 1000
  | .minute => 60000
  | .hour => 3600000
  | .day => 86400000

/-- Reads a unit from the start of a text. -/
def read? : List Char → Option (TimeUnit × List Char)
  | 'm' :: 's' :: cs => some (.millisecond, cs)
  | 's' :: cs => some (.second, cs)
  | 'm' :: cs => some (.minute, cs)
  | 'h' :: cs => some (.hour, cs)
  | 'd' :: cs => some (.day, cs)
  | _ => none

end TimeUnit

/-- A positive length of time in milliseconds. -/
structure Interval where
  millis : Nat
  positive : 0 < millis
  deriving DecidableEq

namespace Interval

/-- The greatest number of milliseconds that is kept. -/
def maxMillis : Nat := Word.size64 * 1000 - 1

/-- The greatest number of milliseconds of a group of whole seconds. -/
def maxWholeMillis : Nat := (Word.size64 - 1) * 1000

/-- Why a text is no interval. -/
inductive Cause where
  /-- It is no sequence of groups. -/
  | malformed (text : String)
  /-- A number cannot be read. -/
  | badNumber (text : String)
  /-- The reason why a number cannot be read. -/
  | number (error : Text.NaturalError)
  /-- The groups add up to nothing. -/
  | zero (text : String)
  deriving Repr, DecidableEq

/-- The wording of each cause. -/
def Cause.message : Cause → String
  | .malformed text =>
    s!"Invalid interval '{text}'. Expected <number><unit> groups (e.g. '30s', '2m', '1h30m')"
  | .badNumber text => s!"Invalid number in interval '{text}'"
  | .number error => error.message
  | .zero text => s!"Interval must be greater than 0, got '{text}'"

/-- The groups of a text, if it is a sequence of groups: the digits and the unit of each. `digits`
are those of the group being read, backwards. -/
def groups? : (digits : List Char) → List Char → Option (List (List Char × TimeUnit))
  | digits, [] => if digits.isEmpty then some [] else none
  | digits, 'm' :: 's' :: cs =>
    if digits.isEmpty then none
    else (groups? [] cs).map ((digits.reverse, .millisecond) :: ·)
  | digits, c :: cs =>
    if Text.isDecimalDigit c then groups? (c :: digits) cs
    else if digits.isEmpty then none
    else
      match TimeUnit.read? [c] with
      | some (unit, _) => (groups? [] cs).map ((digits.reverse, unit) :: ·)
      | none => none

/-- The milliseconds of a group. -/
def groupMillis (n : Nat) : TimeUnit → Nat
  | .millisecond => n
  | unit => min (n * unit.millis) maxWholeMillis

/-- The sum of two lengths. -/
def add (a b : Nat) : Nat :=
  min (a + b) maxMillis

/-- The sum of groups, on from `total`. -/
def sum (text : String) : (total : Nat) → List (List Char × TimeUnit) → Except (Failure Cause) Nat
  | total, [] => .ok total
  | total, (digits, unit) :: groups =>
    match Text.readNatural Word.size64 digits with
    | .ok n => sum text (add total (groupMillis n unit)) groups
    | .error error => within (.badNumber text) (fail (.number error))

/-- Reads an interval. -/
def parse (text : String) : Except (Failure Cause) Interval :=
  match groups? [] (Text.lowercase text).toList with
  | none => fail (.malformed text)
  | some [] => fail (.malformed text)
  | some groups =>
    match sum text 0 groups with
    | .error failure => .error failure
    | .ok total => if h : 0 < total then .ok ⟨total, h⟩ else fail (.zero text)

end Interval

end CredentialRelay
