/-!
# The calendar

Dates of the Gregorian calendar, extended to all years, and their numbering by days since
1970-01-01.

* `Date.number` counts the days from the first day of year 1 and shifts the result.
* `Date.ofNumber` goes back through periods of 400 years, each of which has 146097 days.
* Weekdays are numbered from Sunday, which is 1, to Saturday, which is 7.
-/

namespace CredentialRelay

/-- Whether a year has 366 days. -/
def isLeapYear (year : Int) : Bool :=
  year % 4 == 0 && (year % 100 != 0 || year % 400 == 0)

/-- The number of days of a month. -/
def daysInMonth (year : Int) (month : Nat) : Nat :=
  if month = 2 then if isLeapYear year then 29 else 28
  else if month = 4 ∨ month = 6 ∨ month = 9 ∨ month = 11 then 30
  else 31

/-- The number of days of a year before a month. -/
def daysBeforeMonth (year : Int) (month : Nat) : Nat :=
  (List.range (month - 1)).foldl (fun days m => days + daysInMonth year (m + 1)) 0

/-- The number of days from the first day of year 1 to the first day of a year. -/
def daysBeforeYear (year : Int) : Int :=
  let y := year - 1
  365 * y + y / 4 - y / 100 + y / 400

/-- A day. -/
structure Date where
  year : Int
  month : Nat
  day : Nat
  deriving Repr, DecidableEq

namespace Date

/-- The day number, with respect to the first day of year 1, of 1970-01-01. -/
def epoch : Int := 719162

/-- Whether the date is in the calendar. -/
def isValid (d : Date) : Bool :=
  decide (1 ≤ d.month) && decide (d.month ≤ 12) && decide (1 ≤ d.day) &&
    decide (d.day ≤ daysInMonth d.year d.month)

/-- The number of days since 1970-01-01. -/
def number (d : Date) : Int :=
  daysBeforeYear d.year + daysBeforeMonth d.year d.month + d.day - 1 - epoch

/-- The last year that begins at most `days` days after the first day of year 1. -/
def yearOf (days : Int) : Int :=
  let period := days / 146097
  let rest := days % 146097
  let century := min (rest / 36524) 3
  let rest := rest - century * 36524
  let four := rest / 1461
  let rest := rest - four * 1461
  let single := min (rest / 365) 3
  400 * period + 100 * century + 4 * four + single + 1

/-- The month and the day of a month, `days` days after the first day of `month`; the month is
left where it has no such day. -/
def monthFrom (year : Int) : (fuel : Nat) → (month days : Nat) → Nat × Nat
  | 0, month, days => (month, days + 1)
  | fuel + 1, month, days =>
    let size := daysInMonth year month
    if days < size then (month, days + 1) else monthFrom year fuel (month + 1) (days - size)

/-- The date of a number of days since 1970-01-01. -/
def ofNumber (n : Int) : Date :=
  let days := n + epoch
  let year := yearOf days
  let (month, day) := monthFrom year 11 1 (days - daysBeforeYear year).toNat
  ⟨year, month, day⟩

/-- The weekday of a number of days since 1970-01-01, which was a Thursday. -/
def weekdayOfNumber (n : Int) : Nat :=
  ((n + 4) % 7).toNat + 1

/-- The weekday. -/
def weekday (d : Date) : Nat :=
  weekdayOfNumber d.number

end Date

end CredentialRelay
