/-!
# Fields of a cron expression

Every part of a point in time has a field with the values at which a schedule fires. A field is a
list of items: all values, one value, a range, a name, or a range of names; all but a lone name
may have a step.

* Values are resolved against the bounds of the part, and the first item that cannot be resolved
  is the fault.
* One value with a step means that value and every step after it, up to the last of the part.
* The values of a field come in ascending order, each once.

Results:
* `mem_fieldValues_iff`: a value belongs to a field exactly if it is in bounds and one of the
  items has it.
-/

namespace CredentialRelay.Cron

/-- A part of a point in time that a field is about. -/
inductive Part where
  | second
  | minute
  | hour
  | day
  | month
  | weekday
  | year
  deriving Repr, DecidableEq

namespace Part

/-- The name of the part in diagnostics. -/
def name : Part → String
  | .second => "Seconds"
  | .minute => "Minutes"
  | .hour => "Hours"
  | .day => "Days of Month"
  | .month => "Months"
  | .weekday => "Days of Week"
  | .year => "Years"

/-- The least value. -/
def first : Part → Nat
  | .second => 0
  | .minute => 0
  | .hour => 0
  | .day => 1
  | .month => 1
  | .weekday => 1
  | .year => 1970

/-- The greatest value. -/
def last : Part → Nat
  | .second => 59
  | .minute => 59
  | .hour => 23
  | .day => 31
  | .month => 12
  | .weekday => 7
  | .year => 2100

/-- The values in ascending order. -/
def values (part : Part) : List Nat :=
  List.range' part.first (part.last - part.first + 1)

theorem mem_values_iff {part : Part} {n : Nat} :
    n ∈ part.values ↔ part.first ≤ n ∧ n ≤ part.last := by
  cases part <;> simp only [values, first, last, List.mem_range'_1] <;> omega

end Part

/-- The names of the months in lower case, with their numbers. -/
def monthNames : List (String × Nat) := [
  ("jan", 1), ("january", 1), ("feb", 2), ("february", 2), ("mar", 3), ("march", 3), ("apr", 4),
  ("april", 4), ("may", 5), ("jun", 6), ("june", 6), ("jul", 7), ("july", 7), ("aug", 8),
  ("august", 8), ("sep", 9), ("september", 9), ("oct", 10), ("october", 10), ("nov", 11),
  ("november", 11), ("dec", 12), ("december", 12)]

/-- The names of the weekdays in lower case, with their numbers from Sunday on. -/
def weekdayNames : List (String × Nat) := [
  ("sun", 1), ("sunday", 1), ("mon", 2), ("monday", 2), ("tue", 3), ("tues", 3), ("tuesday", 3),
  ("wed", 4), ("wednesday", 4), ("thu", 5), ("thurs", 5), ("thursday", 5), ("fri", 6),
  ("friday", 6), ("sat", 7), ("saturday", 7)]

/-- Why an expression is refused. -/
inductive Fault where
  /-- The text is no expression. -/
  | malformed
  | tooSmall (part : Part) (value : Nat)
  | tooLarge (part : Part) (value : Nat)
  /-- A range has a bad end, or its ends are in the wrong order. -/
  | badRange (part : Part) (first last : Nat)
  | badNamedRange (part : Part) (first last : String)
  | zeroStep
  | badStep (part : Part) (step : Nat)
  | unknownMonth (name : String)
  | unknownWeekday (name : String)
  /-- The values of the part have no names. -/
  | nameless (part : Part) (name : String)
  deriving Repr, DecidableEq

/-- The wording of each fault. A text that is no expression has none. -/
def Fault.message : Fault → String
  | .malformed => ""
  | .tooSmall part value =>
    s!"{part.name} must be greater than or equal to {part.first}. ('{value}' specified.)"
  | .tooLarge part value => s!"{part.name} must be less than {part.last}. ('{value}' specified.)"
  | .badRange part first last => s!"Invalid range for {part.name}: {first}-{last}"
  | .badNamedRange part first last => s!"Invalid named range for {part.name}: {first}-{last}"
  | .zeroStep => "range step cannot be zero"
  | .badStep part step => s!"{part.name} must be between 1 and {part.last}. ('{step}' specified.)"
  | .unknownMonth name => s!"'{name}' is not a valid month name."
  | .unknownWeekday name => s!"'{name}' is not a valid day of the week."
  | .nameless part name => s!"The '{part.name}' field does not support using names. '{name}' specified."

/-- Values next to each other. -/
inductive Extent where
  | all
  | point (value : Nat)
  | range (first last : Nat)
  | namedRange (first last : String)
  deriving Repr, DecidableEq

/-- One item of a field. -/
inductive Item where
  | plain (extent : Extent)
  | stepped (extent : Extent) (step : Nat)
  | named (name : String)
  deriving Repr, DecidableEq

/-- The values from `low` on by steps of `step`, up to `high`. -/
structure Progression where
  low : Nat
  high : Nat
  step : Nat
  deriving Repr, DecidableEq

/-- Whether a value is in the progression. -/
def Progression.contains (p : Progression) (n : Nat) : Bool :=
  decide (p.low ≤ n) && decide (n ≤ p.high) && (n - p.low) % p.step == 0

namespace Part

/-- Refuses a value that is out of bounds. -/
def check (part : Part) (n : Nat) : Except Fault Nat :=
  if n < part.first then .error (.tooSmall part n)
  else if part.last < n then .error (.tooLarge part n)
  else .ok n

/-- The value of a name in any case. -/
def ofName (part : Part) (name : String) : Except Fault Nat :=
  let lower := String.ofList (name.toList.map Char.toLower)
  match part with
  | .month =>
    match monthNames.lookup lower with
    | some n => .ok n
    | none => .error (.unknownMonth name)
  | .weekday =>
    match weekdayNames.lookup lower with
    | some n => .ok n
    | none => .error (.unknownWeekday name)
  | part => .error (.nameless part name)

end Part

/-- The least and the greatest value of an extent. -/
def Extent.bounds (part : Part) : Extent → Except Fault (Nat × Nat)
  | .all => .ok (part.first, part.last)
  | .point n => (part.check n).map fun n => (n, n)
  | .range first last =>
    if part.first ≤ first ∧ first ≤ last ∧ last ≤ part.last then .ok (first, last)
    else .error (.badRange part first last)
  | .namedRange first last => do
    let low ← part.ofName first
    let high ← part.ofName last
    if low ≤ high then return (low, high) else throw (.badNamedRange part first last)

/-- The values of an item. -/
def Item.progression (part : Part) : Item → Except Fault Progression
  | .plain extent => (extent.bounds part).map fun (low, high) => ⟨low, high, 1⟩
  | .named name => (part.ofName name).map fun n => ⟨n, n, 1⟩
  | .stepped extent step =>
    if step = 0 then .error .zeroStep
    else if part.last < step then .error (.badStep part step)
    else
      match extent with
      | .point n => (part.check n).map fun n => ⟨n, part.last, step⟩
      | extent => (extent.bounds part).map fun (low, high) => ⟨low, high, step⟩

/-- The values of a list of progressions, in ascending order. -/
def fieldValues (part : Part) (progressions : List Progression) : List Nat :=
  part.values.filter fun n => progressions.any fun p => p.contains n

/-- The values of a field, in ascending order. -/
def resolve (part : Part) (items : List Item) : Except Fault (List Nat) :=
  (items.mapM (Item.progression part)).map (fieldValues part)

/-- A value belongs to a field exactly if it is in bounds and one of the items has it. -/
theorem mem_fieldValues_iff {part : Part} {progressions : List Progression} {n : Nat} :
    n ∈ fieldValues part progressions ↔
      part.first ≤ n ∧ n ≤ part.last ∧ ∃ p ∈ progressions, p.contains n = true := by
  simp [fieldValues, Part.mem_values_iff, and_assoc]

end CredentialRelay.Cron
