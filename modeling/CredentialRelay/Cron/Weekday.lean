import CredentialRelay.Text.Natural
import CredentialRelay.Text.Split

/-!
# Weekdays of the standard numbering

In an expression of five fields the weekdays are numbered from 0, which is Sunday, to 6, and 7 is
Sunday again. The last field is renumbered, item by item, for the numbering from 1, which is
Sunday, to 7.

* A number moves up by one, and 7 becomes 1. Names and everything else stay as they are.
* A range that ends in 7 and begins after Sunday would wrap, so its last day becomes an item of its
  own; that leaves no place for a step.

Models `translate_day_of_week` (`shiftWeekdays`) and `shift_day` (`shiftDay`).
-/

namespace CredentialRelay.Cron

/-- Why a weekday field cannot be renumbered. -/
inductive WeekdayFault where
  /-- A number is above 7. -/
  | outOfRange (day : String)
  /-- A range that would wrap has a step. -/
  | steppedWrap (item : String)
  deriving Repr, DecidableEq

/-- The wording of each fault. -/
def WeekdayFault.message : WeekdayFault → String
  | .outOfRange day => s!"Day of week '{day}' is out of range 0-7"
  | .steppedWrap item => s!"Stepped ranges ending in 7 are not supported ('{item}')"

/-- The numbering of a single day moved up. -/
def shiftDay (day : List Char) : Except WeekdayFault (List Char) :=
  if day.isEmpty || !day.all Char.isDigit then .ok day
  else
    match Text.readNatural 256 day with
    | .ok n =>
      if n = 0 ∨ n = 7 then .ok ['1']
      else if n < 7 then .ok (Nat.toDigits 10 (n + 1))
      else .error (.outOfRange (String.ofList day))
    | .error _ => .error (.outOfRange (String.ofList day))

/-- One item of the field renumbered. -/
def shiftItem (item : List Char) : Except WeekdayFault (List Char) :=
  let (base, step) := Text.splitFirst '/' item
  let steps := match step with
    | some step => '/' :: step
    | none => []
  if base = ['*'] ∨ base = ['?'] then .ok item
  else
    match Text.splitFirst '-' base with
    | (start, some stop) =>
      if stop = ['7'] ∧ start ≠ ['0'] then
        if step.isSome then .error (.steppedWrap (String.ofList item))
        else (shiftDay start).map fun start => start ++ ['-', '7', ',', '1']
      else do
        let stop ← if stop = ['7'] then .ok ['7'] else shiftDay stop
        let start ← shiftDay start
        return start ++ '-' :: stop ++ steps
    | (day, none) => (shiftDay day).map fun day => day ++ steps

/-- The weekday field renumbered. -/
def shiftWeekdays (field : List Char) : Except WeekdayFault (List Char) :=
  ((Text.splitAll ',' field).mapM shiftItem).map fun items => [','].intercalate items

end CredentialRelay.Cron
