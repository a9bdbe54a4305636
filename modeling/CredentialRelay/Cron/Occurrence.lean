import CredentialRelay.Cron.Grammar
import CredentialRelay.Time.Instant

/-!
# When a cron expression fires

An instant is an occurrence if every part of it is among the values of its field: the day of the
month and the weekday both have to match. Occurrences are whole seconds from 1970 to 2100.

The search goes from day to day, and on a day that matches through its hours, minutes and seconds.
It starts at the second after the given instant; from a negative year on there is nothing to find.
-/

namespace CredentialRelay.Cron

/-- The number of the last day on which an expression can fire, 2100-12-31. -/
def lastDay : Int := (⟨2100, 12, 31⟩ : Date).number

/-- Whether an expression can fire on the day with the given number. -/
def matchesDay (c : Cron) (day : Int) : Bool :=
  let d := Date.ofNumber day
  c.weekdays.contains (Date.weekdayOfNumber day) && c.months.contains d.month &&
    c.days.contains d.day && decide (0 ≤ d.year) && c.years.contains d.year.toNat

/-- Whether an expression fires at the given second of a day that matches. -/
def matchesTime (c : Cron) (second : Nat) : Bool :=
  c.hours.contains (second / 3600) && c.minutes.contains (second / 60 % 60) &&
    c.seconds.contains (second % 60)

/-- Whether an expression fires at an instant. -/
def Occurs (c : Cron) (t : Instant) : Prop :=
  t.nanos = 0 ∧ c.matchesDay t.dayNumber = true ∧ c.matchesTime t.secondOfDay = true

instance (c : Cron) (t : Instant) : Decidable (c.Occurs t) :=
  inferInstanceAs (Decidable (_ ∧ _))

/-- The first second of a day, from `start` on, at which an expression fires if the day
matches. -/
def firstTime? (c : Cron) (start : Nat) : Option Nat :=
  c.hours.findSome? fun hour =>
    if (hour + 1) * 3600 ≤ start then none
    else c.minutes.findSome? fun minute =>
      if hour * 3600 + (minute + 1) * 60 ≤ start then none
      else c.seconds.findSome? fun second =>
        let time := hour * 3600 + minute * 60 + second
        if time < start then none else some time

/-- The first day that matches among `fuel` days from `day` on. -/
def firstDay? (c : Cron) : (fuel : Nat) → (day : Int) → Option Int
  | 0, _ => none
  | fuel + 1, day => if c.matchesDay day then some day else c.firstDay? fuel (day + 1)

/-- The first second, from `start` on, at which an expression fires. -/
def firstSecond? (c : Cron) (start : Int) : Option Int :=
  let day := start / 86400
  let today :=
    if c.matchesDay day then c.firstTime? (start % 86400).toNat else none
  match today with
  | some time => some (day * 86400 + time)
  | none => do
    let day ← c.firstDay? (lastDay - day).toNat (day + 1)
    let time ← c.firstTime? 0
    return day * 86400 + time

/-- The first occurrence after an instant. -/
def next? (c : Cron) (t : Instant) : Option Instant :=
  let start := t.seconds + 1
  if (Date.ofNumber (start / 86400)).year < 0 then none
  else (c.firstSecond? (max start 0)).map Instant.ofSeconds

end CredentialRelay.Cron
