import CredentialRelay.Time.Instant

/-!
# Days and dates

The numbers of the days are those of the valid dates, each of exactly one: no date is passed over
at the end of a month, of a leap year or of a century, and none is there twice. So every whole
second is shown by exactly one reading of a clock with a calendar.

* `daysInYear` is the length of a year, which the months and the first days of the years agree on.
* `Reading`: what a clock with a calendar shows.

Results:
* `yearOf_bounds`, `yearOf_eq`: the year of a day is the one that has begun and has not ended.
* `monthFrom_bounds`, `monthFrom_eq`: the same for the month and the day within a year.
* `Date.number_ofNumber`, `Date.ofNumber_number`: numbering days and finding their dates are
  inverse to each other.
* `Instant.instant_reading`, `Reading.reading_instant`: the same for whole seconds and readings.
-/

namespace CredentialRelay

/-- The number of days of a year. -/
def daysInYear (year : Int) : Nat :=
  if isLeapYear year then 366 else 365

theorem isLeapYear_iff {year : Int} :
    isLeapYear year = true ↔ year % 4 = 0 ∧ (year % 100 ≠ 0 ∨ year % 400 = 0) := by
  simp [isLeapYear]

/-! ## Years -/

/-- A year begins behind the days of the year before it. -/
theorem daysBeforeYear_succ (year : Int) :
    daysBeforeYear (year + 1) = daysBeforeYear year + daysInYear year := by
  simp only [daysBeforeYear, daysInYear]
  split
  · next h => rw [isLeapYear_iff] at h; omega
  · next h => rw [isLeapYear_iff] at h; omega

theorem daysBeforeYear_mono {a b : Int} (h : a ≤ b) : daysBeforeYear a ≤ daysBeforeYear b := by
  simp only [daysBeforeYear]
  omega

section

variable {period century four single : Int}

/-- The days before a year, by the periods of 400, 100, 4 and 1 years that have passed. -/
theorem daysBeforeYear_periods (hcentury : 0 ≤ century ∧ century ≤ 3)
    (hfour : 0 ≤ four ∧ four ≤ 24) (hsingle : 0 ≤ single ∧ single ≤ 3) :
    daysBeforeYear (400 * period + 100 * century + 4 * four + single + 1) =
      146097 * period + 36524 * century + 1461 * four + 365 * single := by
  simp only [daysBeforeYear]
  omega

/-- The last of four years is a leap year, unless it is the last of a century that is not the last
of four. -/
theorem daysInYear_periods (hcentury : 0 ≤ century ∧ century ≤ 3)
    (hfour : 0 ≤ four ∧ four ≤ 24) (hsingle : 0 ≤ single ∧ single ≤ 3) :
    daysInYear (400 * period + 100 * century + 4 * four + single + 1) =
      if single = 3 ∧ (four = 24 → century = 3) then 366 else 365 := by
  have hleap : isLeapYear (400 * period + 100 * century + 4 * four + single + 1) = true ↔
      single = 3 ∧ (four = 24 → century = 3) := by
    rw [isLeapYear_iff]
    omega
  unfold daysInYear
  simp only [hleap]

end

/-- **The year of a day has begun and has not ended.** -/
theorem yearOf_bounds (days : Int) :
    daysBeforeYear (Date.yearOf days) ≤ days ∧
      days < daysBeforeYear (Date.yearOf days) + daysInYear (Date.yearOf days) := by
  simp only [Date.yearOf]
  rw [daysBeforeYear_periods (by omega) (by omega) (by omega),
    daysInYear_periods (by omega) (by omega) (by omega)]
  split <;> omega

/-- Only one year has begun and has not ended. -/
theorem yearOf_eq {days year : Int} (hbegun : daysBeforeYear year ≤ days)
    (hends : days < daysBeforeYear year + daysInYear year) : Date.yearOf days = year := by
  obtain ⟨hbegun', hends'⟩ := yearOf_bounds days
  rw [← daysBeforeYear_succ] at hends hends'
  rcases Int.lt_trichotomy (Date.yearOf days) year with hlt | heq | hgt
  · have hle : daysBeforeYear (Date.yearOf days + 1) ≤ daysBeforeYear year :=
      daysBeforeYear_mono hlt
    omega
  · exact heq
  · have hle : daysBeforeYear (year + 1) ≤ daysBeforeYear (Date.yearOf days) :=
      daysBeforeYear_mono hgt
    omega

/-- A later day is in no earlier year. -/
theorem yearOf_mono {a b : Int} (h : a ≤ b) : Date.yearOf a ≤ Date.yearOf b := by
  have hbegun := (yearOf_bounds a).1
  have hends := (yearOf_bounds b).2
  rw [← daysBeforeYear_succ] at hends
  refine Int.not_lt.mp fun hlt => ?_
  have hle : daysBeforeYear (Date.yearOf b + 1) ≤ daysBeforeYear (Date.yearOf a) :=
    daysBeforeYear_mono hlt
  omega

/-! ## Months -/

/-- A month begins behind the days of the month before it. -/
theorem daysBeforeMonth_succ (year : Int) {month : Nat} (h : 1 ≤ month) :
    daysBeforeMonth year (month + 1) = daysBeforeMonth year month + daysInMonth year month := by
  obtain ⟨m, rfl⟩ := Nat.exists_eq_add_of_le' h
  simp only [daysBeforeMonth, Nat.add_sub_cancel]
  rw [List.range_succ, List.foldl_append]
  rfl

/-- The twelve months are the whole year. -/
theorem daysBeforeMonth_thirteen (year : Int) : daysBeforeMonth year 13 = daysInYear year := by
  cases hleap : isLeapYear year <;>
    simp [daysBeforeMonth, daysInYear, daysInMonth, hleap, List.range, List.range.loop]

theorem daysBeforeMonth_mono (year : Int) {a b : Nat} (ha : 1 ≤ a) (h : a ≤ b) :
    daysBeforeMonth year a ≤ daysBeforeMonth year b := by
  induction h with
  | refl => exact Nat.le_refl _
  | step hle ih =>
    rw [daysBeforeMonth_succ year (Nat.le_trans ha hle)]
    exact Nat.le_trans ih (Nat.le_add_right _ _)

/-- **The month that is found has the day that is found**, so many days after the first day of the
month in which the search begins. -/
theorem monthFrom_bounds (year : Int) : ∀ (fuel month days : Nat), 1 ≤ month →
    daysBeforeMonth year month + days < daysBeforeMonth year (month + fuel + 1) →
    let found := Date.monthFrom year fuel month days
    month ≤ found.1 ∧ found.1 ≤ month + fuel ∧ 1 ≤ found.2 ∧
      found.2 ≤ daysInMonth year found.1 ∧
      daysBeforeMonth year found.1 + found.2 = daysBeforeMonth year month + days + 1
  | 0, month, days, hmonth, h => by
    rw [Nat.add_zero, daysBeforeMonth_succ year hmonth] at h
    simp only [Date.monthFrom]
    omega
  | fuel + 1, month, days, hmonth, h => by
    have hnext := daysBeforeMonth_succ year hmonth
    simp only [Date.monthFrom]
    split
    · dsimp only
      omega
    · have ih := monthFrom_bounds year fuel (month + 1) (days - daysInMonth year month) (by omega)
        (by rw [show month + 1 + fuel + 1 = month + (fuel + 1) + 1 by omega]; omega)
      simp only at ih
      omega

/-- Only one month has a day that many days later. -/
theorem monthFrom_eq (year : Int) : ∀ {fuel month days m d : Nat}, 1 ≤ month → month ≤ m →
    m ≤ month + fuel → 1 ≤ d → d ≤ daysInMonth year m →
    daysBeforeMonth year m + d = daysBeforeMonth year month + days + 1 →
    Date.monthFrom year fuel month days = (m, d)
  | 0, month, days, m, d, _, hle, hge, _, _, h => by
    obtain rfl : m = month := by omega
    exact Prod.ext rfl (by simp only [Date.monthFrom]; omega)
  | fuel + 1, month, days, m, d, hmonth, hle, hge, hd, hsize, h => by
    have hnext := daysBeforeMonth_succ year hmonth
    simp only [Date.monthFrom]
    rcases Nat.eq_or_lt_of_le hle with rfl | hlt
    · rw [if_pos (by omega)]
      exact Prod.ext rfl (by simp only; omega)
    · have hmono := daysBeforeMonth_mono year (Nat.le_add_left 1 month) hlt
      rw [if_neg (by omega)]
      exact monthFrom_eq year (by omega) hlt (by omega) hd hsize (by omega)

/-! ## Dates -/

namespace Date

theorem isValid_iff {d : Date} : d.isValid = true ↔
    1 ≤ d.month ∧ d.month ≤ 12 ∧ 1 ≤ d.day ∧ d.day ≤ daysInMonth d.year d.month := by
  simp [isValid, and_assoc]

/-- A day of a year is found in one of its months. -/
theorem ofNumber_bounds (n : Int) :
    (ofNumber n).isValid = true ∧ (ofNumber n).number = n := by
  obtain ⟨hbegun, hends⟩ := yearOf_bounds (n + epoch)
  have hwhole := daysBeforeMonth_thirteen (yearOf (n + epoch))
  have hfirst : daysBeforeMonth (yearOf (n + epoch)) 1 = 0 := rfl
  have hfound := monthFrom_bounds (yearOf (n + epoch)) 11 1
    (n + epoch - daysBeforeYear (yearOf (n + epoch))).toNat (Nat.le_refl 1)
    (by rw [show 1 + 11 + 1 = 13 from rfl]; omega)
  simp only at hfound
  rw [isValid_iff]
  simp only [ofNumber, number]
  omega

/-- What is found for a number is a date of the calendar. -/
theorem isValid_ofNumber (n : Int) : (ofNumber n).isValid = true :=
  (ofNumber_bounds n).1

/-- **The date that is found for a number has this number.** -/
theorem number_ofNumber (n : Int) : (ofNumber n).number = n :=
  (ofNumber_bounds n).2

/-- **The date that is found for the number of a date is this date.** -/
theorem ofNumber_number {d : Date} (h : d.isValid = true) : ofNumber d.number = d := by
  obtain ⟨hfirst, hlast, hday, hsize⟩ := isValid_iff.mp h
  have hbefore := daysBeforeMonth_mono d.year (Nat.le_add_left 1 d.month) (Nat.succ_le_succ hlast)
  rw [daysBeforeMonth_succ d.year hfirst, daysBeforeMonth_thirteen] at hbefore
  have hdays : d.number + epoch =
      daysBeforeYear d.year + daysBeforeMonth d.year d.month + d.day - 1 := by
    unfold number
    omega
  have hyear : yearOf (d.number + epoch) = d.year :=
    yearOf_eq (by rw [hdays]; omega) (by rw [hdays]; omega)
  have hmonth : monthFrom d.year 11 1 (d.number + epoch - daysBeforeYear d.year).toNat =
      (d.month, d.day) :=
    monthFrom_eq d.year (Nat.le_refl 1) hfirst (by omega) hday hsize
      (by rw [show daysBeforeMonth d.year 1 = 0 from rfl, hdays]; omega)
  simp only [ofNumber, hyear, hmonth]

end Date

/-! ## Clocks -/

/-- What a clock with a calendar shows. -/
@[ext] structure Reading where
  date : Date
  hour : Nat
  minute : Nat
  second : Nat
  isValid : date.isValid = true
  hour_lt : hour < 24
  minute_lt : minute < 60
  second_lt : second < 60

/-- The instant at which a clock shows a reading. -/
def Reading.instant (r : Reading) : Instant :=
  .ofSeconds (r.date.number * 86400 + (r.hour * 3600 + r.minute * 60 + r.second : Nat))

namespace Instant

theorem before_trans {a b c : Instant} (hab : a.before b = true) (hbc : b.before c = true) :
    a.before c = true := by
  simp only [before, Bool.or_eq_true, Bool.and_eq_true, decide_eq_true_eq, beq_iff_eq] at *
  omega

theorem before_asymm {a b : Instant} (h : a.before b = true) : b.before a = false := by
  rw [Bool.eq_false_iff]
  intro h'
  simp only [before, Bool.or_eq_true, Bool.and_eq_true, decide_eq_true_eq, beq_iff_eq] at *
  omega

/-- A whole second is behind an instant if its number is greater. -/
theorem before_iff_of_whole {now t : Instant} (h : t.nanos = 0) :
    now.before t = true ↔ now.seconds < t.seconds := by
  simp [before, h]

theorem eq_of_whole {t u : Instant} (ht : t.nanos = 0) (hu : u.nanos = 0)
    (h : t.seconds = u.seconds) : t = u := by
  cases t
  cases u
  cases ht
  cases hu
  cases h
  rfl

theorem secondOfDay_lt (t : Instant) : t.secondOfDay < 86400 := by
  unfold secondOfDay
  omega

/-- The second of an instant, by its day and the second of the day. -/
theorem seconds_eq (t : Instant) : t.seconds = t.dayNumber * 86400 + t.secondOfDay := by
  unfold dayNumber secondOfDay
  omega

/-- What a clock shows at an instant, but for the fraction. -/
def reading (t : Instant) : Reading where
  date := t.date
  hour := t.secondOfDay / 3600
  minute := t.secondOfDay / 60 % 60
  second := t.secondOfDay % 60
  isValid := Date.isValid_ofNumber t.dayNumber
  hour_lt := by
    have := t.secondOfDay_lt
    omega
  minute_lt := Nat.mod_lt _ (by decide)
  second_lt := Nat.mod_lt _ (by decide)

/-- **A clock shows every whole second at that second.** -/
theorem instant_reading {t : Instant} (h : t.nanos = 0) : t.reading.instant = t := by
  have hseconds : (t.date.number * 86400 + (t.secondOfDay / 3600 * 3600 +
      t.secondOfDay / 60 % 60 * 60 + t.secondOfDay % 60 : Nat) : Int) = t.seconds := by
    have hday : t.date.number = t.dayNumber := Date.number_ofNumber t.dayNumber
    have := t.seconds_eq
    omega
  obtain ⟨seconds, nanos⟩ := t
  cases h
  exact congrArg Instant.ofSeconds hseconds

end Instant

/-- **A clock shows every reading at its instant.** -/
theorem Reading.reading_instant (r : Reading) : r.instant.reading = r := by
  have hhour := r.hour_lt
  have hminute := r.minute_lt
  have hsecond := r.second_lt
  have hday : r.instant.dayNumber = r.date.number := by
    show (r.date.number * 86400 + (r.hour * 3600 + r.minute * 60 + r.second : Nat)) / 86400 = _
    omega
  have htime : r.instant.secondOfDay = r.hour * 3600 + r.minute * 60 + r.second := by
    have := r.instant.seconds_eq
    have : r.instant.seconds =
      r.date.number * 86400 + (r.hour * 3600 + r.minute * 60 + r.second : Nat) := rfl
    omega
  refine Reading.ext ?_ ?_ ?_ ?_
  · show Date.ofNumber r.instant.dayNumber = r.date
    rw [hday, Date.ofNumber_number r.isValid]
  · show r.instant.secondOfDay / 3600 = r.hour
    omega
  · show r.instant.secondOfDay / 60 % 60 = r.minute
    omega
  · show r.instant.secondOfDay % 60 = r.second
    omega

end CredentialRelay
