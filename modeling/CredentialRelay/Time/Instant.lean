import CredentialRelay.Time.Calendar

/-!
# Points in time

An instant counts seconds since 1970-01-01T00:00:00 in universal time, and nanoseconds within the
second. A leap second has no number of its own: it is the second before it, with at least `10 ^ 9`
nanoseconds, and is shown as second 60.

* Instants are ordered by their second and then by their nanoseconds.
* `Instant.render` shows an instant with its offset, `Instant.describe` with the letter `Z`. Both
  show a fraction in 3, 6 or 9 digits and only where there is one.
* A year outside 0 to 9999 is shown with its sign.
-/

namespace CredentialRelay

/-- A point in time. -/
structure Instant where
  /-- Seconds since 1970-01-01T00:00:00. -/
  seconds : Int
  /-- Nanoseconds within the second; from `10 ^ 9` on they belong to a leap second behind it. -/
  nanos : Nat
  deriving Repr, DecidableEq

namespace Instant

/-- How many nanoseconds a second has. -/
def nanosPerSecond : Nat := 1000000000

/-- Whether `a` is before `b`. -/
def before (a b : Instant) : Bool :=
  decide (a.seconds < b.seconds) || (a.seconds == b.seconds && decide (a.nanos < b.nanos))

/-- The later of two instants. -/
def latest (a b : Instant) : Instant :=
  if a.before b then b else a

/-- The instant of a whole second. -/
def ofSeconds (seconds : Int) : Instant :=
  ⟨seconds, 0⟩

/-- The number of days since 1970-01-01. -/
def dayNumber (t : Instant) : Int :=
  t.seconds / 86400

/-- The day. -/
def date (t : Instant) : Date :=
  Date.ofNumber t.dayNumber

/-- The second of the day. -/
def secondOfDay (t : Instant) : Nat :=
  (t.seconds % 86400).toNat

/-- The instant without its fraction. A leap second stays one. -/
def truncated (t : Instant) : Instant :=
  ⟨t.seconds, if t.nanos < nanosPerSecond then 0 else nanosPerSecond⟩

/-- The first and the last second that an instant can have. -/
def bounds : Int × Int :=
  ((⟨-262143, 1, 1⟩ : Date).number * 86400, (⟨262142, 12, 31⟩ : Date).number * 86400 + 86399)

/-- Whether an instant is within the bounds. -/
def isInBounds (t : Instant) : Bool :=
  decide (bounds.1 ≤ t.seconds) && decide (t.seconds ≤ bounds.2)

/-- The instant some milliseconds later, if it is within the bounds. From inside a leap second a
whole second or more leads out of it, and so does a part that is long enough. -/
def addMillis? (t : Instant) (millis : Nat) : Option Instant :=
  let seconds := millis / 1000
  let nanos := millis % 1000 * 1000000
  let leaves := 0 < seconds ∨ (0 < nanos ∧ 2 * nanosPerSecond ≤ t.nanos + nanos)
  let sum : Instant :=
    if nanosPerSecond ≤ t.nanos ∧ ¬ leaves then ⟨t.seconds, t.nanos + nanos⟩
    else
      let start := if nanosPerSecond ≤ t.nanos then t.nanos - nanosPerSecond else t.nanos
      ⟨t.seconds + seconds + ((start + nanos) / nanosPerSecond : Nat),
        (start + nanos) % nanosPerSecond⟩
  if sum.isInBounds then some sum else none

/-! ## Showing instants -/

/-- The decimal digits of `n`, with zeros in front up to `width`. -/
def padded (width n : Nat) : String :=
  let digits := Nat.toDigits 10 n
  String.ofList (List.replicate (width - digits.length) '0' ++ digits)

/-- A year, with a sign where it is outside 0 to 9999. -/
def showYear (year : Int) : String :=
  if 0 ≤ year ∧ year ≤ 9999 then padded 4 year.toNat
  else (if year < 0 then "-" else "+") ++ padded 4 year.natAbs

/-- A fraction of a second, in as many groups of three digits as it needs. -/
def showFraction (nanos : Nat) : String :=
  if nanos = 0 then ""
  else if nanos % 1000000 = 0 then "." ++ padded 3 (nanos / 1000000)
  else if nanos % 1000 = 0 then "." ++ padded 6 (nanos / 1000)
  else "." ++ padded 9 nanos

/-- The date and the time of the day. -/
def showLocal (t : Instant) : String :=
  let d := t.date
  let s := t.secondOfDay
  let leap := t.nanos / nanosPerSecond
  showYear d.year ++ "-" ++ padded 2 d.month ++ "-" ++ padded 2 d.day ++ "T" ++
    padded 2 (s / 3600) ++ ":" ++ padded 2 (s / 60 % 60) ++ ":" ++ padded 2 (s % 60 + leap) ++
    showFraction (t.nanos % nanosPerSecond)

/-- The instant with its offset. -/
def render (t : Instant) : String :=
  t.showLocal ++ "+00:00"

/-- The instant with a `Z`. -/
def describe (t : Instant) : String :=
  t.showLocal ++ "Z"

end Instant

end CredentialRelay
