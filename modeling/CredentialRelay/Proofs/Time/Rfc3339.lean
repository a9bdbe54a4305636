import CredentialRelay.Proofs.Attempt
import CredentialRelay.Proofs.Time.Calendar
import CredentialRelay.Time.Rfc3339
import Mathlib.Algebra.Group.Nat.Defs
import Mathlib.Data.List.Basic

/-!
# Timestamps that are written are read

An instant is written with the local time and the offset of some zone, and the same instant is read
from that, whichever zone it is. A leap second is no exception, as long as it ends a minute.

* `Instant.IsProper`: a leap second ends a minute.
* `Instant.writtenAt offset`: the instant as it is written where the local time is ahead by so many
  minutes.
* `Instant.HasFourDigitYear`: the year is written with four digits and no sign.

Results:
* `parse_writtenAt`: what is written with any offset is read as the instant.
* `parseStrict_describe`: what is written with the letter `Z` is read strictly exactly in years of
  four digits.
* `isProper_of_parse`: only proper instants are read.
-/

namespace CredentialRelay

open Text

namespace Instant

/-! ## Proper instants -/

/-- A leap second ends a minute. -/
structure IsProper (t : Instant) : Prop where
  nanos_lt : t.nanos < 2 * nanosPerSecond
  ends_minute : nanosPerSecond ≤ t.nanos → t.seconds % 60 = 59

/-- The year is written with four digits and no sign. -/
def HasFourDigitYear (t : Instant) : Prop :=
  0 ≤ t.date.year ∧ t.date.year ≤ 9999

instance (t : Instant) : Decidable t.HasFourDigitYear :=
  inferInstanceAs (Decidable (_ ∧ _))

/-- The instant at which a clock in universal time shows what one shows that is ahead. -/
def ahead (t : Instant) (minutes : Int) : Instant :=
  ⟨t.seconds + minutes * 60, t.nanos⟩

/-- The second that is shown, of a minute that has 61 if it ends in a leap second. -/
def shownSecond (t : Instant) : Nat :=
  t.secondOfDay % 60 + t.nanos / nanosPerSecond

theorem IsProper.ahead {t : Instant} (h : t.IsProper) (minutes : Int) :
    (t.ahead minutes).IsProper := by
  refine ⟨h.nanos_lt, fun hleap => ?_⟩
  have := h.ends_minute hleap
  simp only [Instant.ahead]
  omega

theorem IsProper.truncated {t : Instant} (h : t.IsProper) : t.truncated.IsProper := by
  have hpositive : 0 < nanosPerSecond := by decide
  constructor
  · simp only [Instant.truncated]
    split <;> omega
  · intro hleap
    refine h.ends_minute ?_
    simp only [Instant.truncated] at hleap
    split at hleap <;> omega

/-- A leap second is shown as second 60, and no other second is. -/
theorem IsProper.shownSecond_cases {t : Instant} (h : t.IsProper) :
    t.nanos < nanosPerSecond ∧ t.shownSecond = t.secondOfDay % 60 ∨
      nanosPerSecond ≤ t.nanos ∧ t.secondOfDay % 60 = 59 ∧ t.shownSecond = 60 := by
  have hpositive : 0 < nanosPerSecond := by decide
  rcases Nat.lt_or_ge t.nanos nanosPerSecond with hlt | hge
  · refine .inl ⟨hlt, ?_⟩
    rw [shownSecond, Nat.div_eq_of_lt hlt, Nat.add_zero]
  · have hone : t.nanos / nanosPerSecond = 1 :=
      Nat.div_eq_of_lt_le (by omega) (by have := h.nanos_lt; omega)
    have hends : t.secondOfDay % 60 = 59 := by
      have := h.ends_minute hge
      unfold secondOfDay
      omega
    exact .inr ⟨hge, hends, by rw [shownSecond, hone, hends]⟩

/-! ## How instants are written -/

/-- An offset in minutes. -/
def showOffset (minutes : Int) : String :=
  (if minutes < 0 then "-" else "+") ++ padded 2 (minutes.natAbs / 60) ++ ":" ++
    padded 2 (minutes.natAbs % 60)

/-- The instant as it is written where the local time is ahead by so many minutes. -/
def writtenAt (t : Instant) (minutes : Int) : String :=
  (t.ahead minutes).showLocal ++ showOffset minutes

/-! ## Numbers with leading zeros -/

theorem isDigit_of_mem_padded {width n : Nat} {c : Char} (h : c ∈ (padded width n).toList) :
    c.isDigit = true := by
  rw [padded, String.toList_ofList] at h
  rcases List.mem_append.mp h with hzero | hdigit
  · rw [List.eq_of_mem_replicate hzero]
    rfl
  · exact Nat.isDigit_of_mem_toDigits (by decide) (by decide) hdigit

/-- Leading zeros do not change a number. -/
theorem digitsValue_padded (width n : Nat) : digitsValue 0 (padded width n).toList = n := by
  have hvalue (cs : List Char) : digitsValue 0 cs = Nat.ofDigitChars 10 cs 0 := by
    rw [Nat.ofDigitChars_eq_foldl, digitsValue]
    simp only [digitValue, Nat.mul_comm]
  rw [padded, String.toList_ofList, hvalue, Nat.ofDigitChars_append,
    Nat.ofDigitChars_replicate_zero, Nat.mul_zero, Nat.ofDigitChars_ten_toDigits]

theorem padded_ne_nil (width n : Nat) : (padded width n).toList ≠ [] := by
  simp [padded, Nat.toDigits_ne_nil]

/-- A number that fits the width has just that width. -/
theorem length_padded {width n : Nat} (hwidth : 0 < width) (h : n < 10 ^ width) :
    (padded width n).toList.length = width := by
  have hlength : (Nat.toDigits 10 n).length ≤ width :=
    (Nat.length_toDigits_le_iff (by decide) hwidth).mpr h
  simp only [padded, String.toList_ofList, List.length_append, List.length_replicate]
  omega

/-- A number of two digits. -/
theorem padded_two {n : Nat} (h : n < 100) : ∃ a b, (padded 2 n).toList = [a, b] ∧
    a.isDigit = true ∧ b.isDigit = true ∧ digitsValue 0 [a, b] = n := by
  obtain ⟨a, b, hab⟩ := List.length_eq_two.mp (length_padded (by decide : 0 < 2) h)
  refine ⟨a, b, hab, ?_, ?_, ?_⟩
  · exact isDigit_of_mem_padded (hab ▸ List.mem_cons_self)
  · exact isDigit_of_mem_padded (hab ▸ List.mem_cons_of_mem a List.mem_cons_self)
  · rw [← hab, digitsValue_padded]

theorem toList_showLocal (t : Instant) (cs : List Char) :
    t.showLocal.toList ++ cs = (showYear t.date.year).toList ++ '-' ::
      ((padded 2 t.date.month).toList ++ '-' :: ((padded 2 t.date.day).toList ++ 'T' ::
      ((padded 2 (t.secondOfDay / 3600)).toList ++ ':' ::
      ((padded 2 (t.secondOfDay / 60 % 60)).toList ++ ':' ::
      ((padded 2 t.shownSecond).toList ++
      ((showFraction (t.nanos % nanosPerSecond)).toList ++ cs)))))) := by
  simp [showLocal, shownSecond]

/-! ## Bounds -/

theorem year_le {t : Instant} {d : Date} (hd : d.isValid = true)
    (h : t.seconds ≤ d.number * 86400 + 86399) : t.date.year ≤ d.year := by
  have hle : t.dayNumber ≤ d.number := by
    unfold dayNumber
    omega
  rw [← Date.ofNumber_number hd]
  exact yearOf_mono (Int.add_le_add_right hle _)

theorem le_year {t : Instant} {d : Date} (hd : d.isValid = true)
    (h : d.number * 86400 ≤ t.seconds) : d.year ≤ t.date.year := by
  have hle : d.number ≤ t.dayNumber := by
    unfold dayNumber
    omega
  rw [← Date.ofNumber_number hd]
  exact yearOf_mono (Int.add_le_add_right hle _)

theorem isInBounds_eq_true_iff {t : Instant} :
    t.isInBounds = true ↔ bounds.1 ≤ t.seconds ∧ t.seconds ≤ bounds.2 := by
  simp [isInBounds]

theorem natAbs_year_le {t : Instant} (h : t.isInBounds = true) : t.date.year.natAbs ≤ 262143 := by
  obtain ⟨hfirst, hlast⟩ := isInBounds_eq_true_iff.mp h
  have hge := le_year (d := ⟨-262143, 1, 1⟩) (by decide) hfirst
  have hle := year_le (d := ⟨262142, 12, 31⟩) (by decide) hlast
  simp only at hge hle
  omega

/-- Years of four digits are within the bounds. -/
theorem HasFourDigitYear.isInBounds {t : Instant} (h : t.HasFourDigitYear) :
    t.isInBounds = true := by
  refine isInBounds_eq_true_iff.mpr ⟨Int.not_lt.mp fun hlt => ?_, Int.not_lt.mp fun hlt => ?_⟩
  · have hle := year_le (t := t) (d := ⟨-262143, 1, 1⟩) (by decide) (by
      have : bounds.1 = (⟨-262143, 1, 1⟩ : Date).number * 86400 := rfl
      omega)
    exact absurd (Int.le_trans h.1 hle) (by decide)
  · have hle := le_year (t := t) (d := ⟨262142, 12, 31⟩) (by decide) (by
      have : bounds.2 = (⟨262142, 12, 31⟩ : Date).number * 86400 + 86399 := rfl
      omega)
    exact absurd (Int.le_trans hle h.2) (by decide)

end Instant

namespace Timestamp

open Instant

variable {t : Instant}

/-! ## Reading numbers -/

theorem toNat_le_of_isDigit {c : Char} (h : c.isDigit = true) : c.toNat ≤ '9'.toNat := by
  simp only [Char.isDigit, Bool.and_eq_true, decide_eq_true_eq] at h
  exact h.2

theorem not_isBlank_of_isDigit {c : Char} (h : c.isDigit = true) : Text.isBlank c = false := by
  have hall : ∀ n ≤ '9'.toNat, (Char.ofNat n).isDigit = true →
      Text.isBlank (Char.ofNat n) = false := by
    decide
  have hc := hall c.toNat (toNat_le_of_isDigit h)
  rw [Char.ofNat_toNat] at hc
  exact hc h

theorem skipBlanks_cons_of_not {c : Char} (h : Text.isBlank c = false) (cs : List Char) :
    skipBlanks (c :: cs) = c :: cs := by
  rw [skipBlanks, List.dropWhile_cons_of_neg (by simp [h])]

theorem skipBlanks_padded (width n : Nat) (cs : List Char) :
    skipBlanks ((padded width n).toList ++ cs) = (padded width n).toList ++ cs := by
  cases hchars : (padded width n).toList with
  | nil => exact absurd hchars (padded_ne_nil width n)
  | cons c ds =>
    exact skipBlanks_cons_of_not (not_isBlank_of_isDigit
      (isDigit_of_mem_padded (hchars ▸ List.mem_cons_self))) _

/-- A number whose digits are found is read up to what comes behind them. -/
theorem number_of_digits {limit : Option Nat} {width n : Nat} {cs : List Char}
    (hdigits : (match limit with
      | some limit => (((padded width n).toList ++ cs).takeWhile Char.isDigit).take limit
      | none => ((padded width n).toList ++ cs).takeWhile Char.isDigit) = (padded width n).toList)
    (hsize : n < Word.size63) :
    number limit ((padded width n).toList ++ cs) = .ok (n, cs) := by
  have hempty : ((padded width n).toList ++ cs).isEmpty = false :=
    List.isEmpty_eq_false_iff.mpr (List.append_ne_nil_of_left_ne_nil (padded_ne_nil width n) cs)
  have hdigits' : (padded width n).toList.isEmpty = false :=
    List.isEmpty_eq_false_iff.mpr (padded_ne_nil width n)
  cases limit <;>
  · simp only at hdigits
    simp only [number, hdigits, digitsValue_padded, hempty, hdigits', Bool.false_eq_true, if_false,
      hsize, if_true, List.drop_left]

theorem takeWhile_padded (width n : Nat) (cs : List Char) :
    ((padded width n).toList ++ cs).takeWhile Char.isDigit =
      (padded width n).toList ++ cs.takeWhile Char.isDigit :=
  List.takeWhile_append_of_pos fun _ hc => isDigit_of_mem_padded hc

/-- A number that has the width is read, whatever comes behind. -/
theorem number_padded {width n : Nat} (hwidth : 0 < width) (h : n < 10 ^ width)
    (hsize : n < Word.size63) (cs : List Char) :
    number (some width) ((padded width n).toList ++ cs) = .ok (n, cs) := by
  refine number_of_digits ?_ hsize
  simp only [takeWhile_padded, List.take_left' (length_padded hwidth h)]

/-- A number that is not wider than it may be is read up to the first character that is no
digit. -/
theorem number_upTo {limit width n : Nat} (hlimit : (padded width n).toList.length ≤ limit)
    (hsize : n < Word.size63) {c : Char} (hc : c.isDigit = false) (cs : List Char) :
    number (some limit) ((padded width n).toList ++ c :: cs) = .ok (n, c :: cs) := by
  refine number_of_digits ?_ hsize
  simp only [takeWhile_padded, List.takeWhile_cons_of_neg (Bool.eq_false_iff.mp hc),
    List.append_nil, List.take_of_length_le hlimit]

theorem number_unbounded {width n : Nat} (hsize : n < Word.size63) {c : Char}
    (hc : c.isDigit = false) (cs : List Char) :
    number none ((padded width n).toList ++ c :: cs) = .ok (n, c :: cs) := by
  refine number_of_digits ?_ hsize
  simp only [takeWhile_padded, List.takeWhile_cons_of_neg (Bool.eq_false_iff.mp hc),
    List.append_nil]

theorem twoDigits_padded {low high n : Nat} (hlow : low ≤ n) (hhigh : n ≤ high) (h : n < 100)
    (cs : List Char) : twoDigits low high ((padded 2 n).toList ++ cs) = .ok (n, cs) := by
  have hsize : n < Word.size63 := Nat.lt_trans h (by decide)
  unfold twoDigits
  rw [skipBlanks_padded, number_padded (by decide) h hsize]
  simp only [hlow, hhigh, and_self, if_true]

theorem exactDigits_padded {width low high n : Nat} (hwidth : 0 < width) (h : n < 10 ^ width)
    (hlow : low ≤ n) (hhigh : n ≤ high) (cs : List Char) :
    exactDigits width low high ((padded width n).toList ++ cs) = .ok (n, cs) := by
  have hlength := length_padded hwidth h
  have hall : (padded width n).toList.all Char.isDigit = true :=
    List.all_eq_true.mpr fun _ hc => isDigit_of_mem_padded hc
  unfold exactDigits
  simp only [List.take_left' hlength, List.drop_left' hlength, digitsValue_padded, hall, hlow,
    hhigh, List.length_append, hlength, and_self, if_true, Bool.true_eq_false, if_false]
  rw [if_neg (by omega)]

/-! ## Reading the parts -/

theorem mark_self {c : Char} (h : Text.isBlank c = false) (cs : List Char) :
    mark c (c :: cs) = .ok cs := by
  unfold mark
  rw [skipBlanks_cons_of_not h]
  simp only [if_true]

/-- A year is read with its sign, or without one if it has four digits. -/
theorem year_showYear {y : Int} (h : y.natAbs ≤ 262143) (cs : List Char) :
    year ((showYear y).toList ++ '-' :: cs) = .ok (y, '-' :: cs) := by
  have hsize : y.natAbs < Word.size31 := Nat.lt_of_le_of_lt h (by decide)
  have hwide : y.natAbs < Word.size63 := Nat.lt_of_le_of_lt h (by decide)
  have hsigned : number none ((padded 4 y.natAbs).toList ++ '-' :: cs) =
      .ok (y.natAbs, '-' :: cs) := number_unbounded hwide (by decide) cs
  unfold showYear
  split
  · next hfour =>
    obtain ⟨n, rfl⟩ := Int.eq_ofNat_of_zero_le hfour.1
    have hread : number (some 4) ((padded 4 n).toList ++ '-' :: cs) = .ok (n, '-' :: cs) :=
      number_padded (by decide) (by omega) hwide _
    rw [Int.toNat_natCast, year, skipBlanks_padded]
    cases hchars : (padded 4 n).toList with
    | nil => exact absurd hchars (padded_ne_nil 4 n)
    | cons c ds =>
      have hdigit : c.isDigit = true := isDigit_of_mem_padded (hchars ▸ List.mem_cons_self)
      rw [hchars] at hread
      split
      · next hc =>
        obtain rfl := (List.cons.inj hc).1
        cases hdigit
      · next hc =>
        obtain rfl := (List.cons.inj hc).1
        cases hdigit
      · simp only [hread, Except.map, Int.natAbs_natCast]
        exact if_pos hsize
  · next hfour =>
    split
    · next hneg =>
      have hy : -(y.natAbs : Int) = y := by omega
      simp only [String.toList_append, List.append_assoc]
      show year ('-' :: ((padded 4 y.natAbs).toList ++ '-' :: cs)) = _
      rw [year, skipBlanks_cons_of_not (by decide)]
      simp only [hsigned, Except.map, hy, hsize, if_true]
    · next hneg =>
      have hy : (y.natAbs : Int) = y := by omega
      simp only [String.toList_append, List.append_assoc]
      show year ('+' :: ((padded 4 y.natAbs).toList ++ '-' :: cs)) = _
      rw [year, skipBlanks_cons_of_not (by decide)]
      simp only [hsigned, Except.map, hy, hsize, if_true]

/-- Digits of a fraction stand for so many nanoseconds as their place tells. -/
theorem fraction_padded (width : Nat) {n : Nat} (hwidth : 0 < width) (hnine : width ≤ 9)
    (h : n < 10 ^ width) {c : Char} (hc : c.isDigit = false) (cs : List Char) :
    fraction ('.' :: ((padded width n).toList ++ c :: cs)) =
      .ok (n * 10 ^ (9 - width), c :: cs) := by
  have hlength := length_padded hwidth h
  have hsize : n < Word.size63 := by
    have : 10 ^ width ≤ 10 ^ 9 := Nat.pow_le_pow_right (by decide) hnine
    exact Nat.lt_of_lt_of_le h (Nat.le_trans this (by decide))
  have hwide : ((padded width n).toList ++ c :: cs).length - (c :: cs).length = width := by
    rw [List.length_append, Nat.add_sub_cancel, hlength]
  unfold fraction
  simp only [number_upTo (hlength ▸ hnine) hsize hc, hwide,
    List.dropWhile_cons_of_neg (Bool.eq_false_iff.mp hc)]
  rfl

/-- A fraction is read back from the digits that it needs. -/
theorem fraction_showFraction {n : Nat} (h : n < nanosPerSecond) {c : Char} (hc : c.isDigit = false)
    (hpoint : c ≠ '.') (cs : List Char) :
    fraction ((showFraction n).toList ++ c :: cs) = .ok (n, c :: cs) := by
  have hbound : n < 1000000000 := h
  unfold showFraction
  split
  · next hzero =>
    subst hzero
    show fraction (c :: cs) = _
    unfold fraction
    split
    · next hcons => exact absurd (List.cons.inj hcons).1 hpoint
    · rfl
  · split
    · next hmillis =>
      have hread := fraction_padded 3 (n := n / 1000000) (by decide) (by decide) (by omega) hc cs
      rw [show n / 1000000 * 10 ^ (9 - 3) = n by omega] at hread
      simpa using hread
    · split
      · next hmicros =>
        have hread := fraction_padded 6 (n := n / 1000) (by decide) (by decide) (by omega) hc cs
        rw [show n / 1000 * 10 ^ (9 - 6) = n by omega] at hread
        simpa using hread
      · have hread := fraction_padded 9 (n := n) (by decide) (by decide) (by omega) hc cs
        rw [show n * 10 ^ (9 - 9) = n by omega] at hread
        simpa using hread

/-- An offset is read by its hours and its minutes. -/
theorem offsetDigits_padded {hours minutes : Nat} (hhours : hours < 100) (hminutes : minutes < 60) :
    offsetDigits ((padded 2 hours).toList ++ ':' :: (padded 2 minutes).toList) =
      .ok (hours * 60 + minutes, []) := by
  obtain ⟨a, b, hab, ha, hb, hvalue⟩ := padded_two hhours
  obtain ⟨c, d, hcd, hc, hd, hvalue'⟩ := padded_two (n := minutes) (by omega)
  have hcolon : (c == ':' || Text.isBlank c) = false := by
    rw [not_isBlank_of_isDigit hc, Bool.or_false, beq_eq_false_iff_ne]
    rintro rfl
    cases hc
  have hread : offsetMinutes [c, d] = .ok (minutes, []) := by
    simp only [offsetMinutes, hc, hd, hvalue', hminutes, and_self, if_true]
  have hdrop : (':' :: [c, d]).dropWhile (fun c => c == ':' || Text.isBlank c) = [c, d] :=
    (List.dropWhile_cons_of_pos (by rfl)).trans (List.dropWhile_cons_of_neg (by simp [hcolon]))
  rw [hab, hcd]
  simp only [List.cons_append, List.nil_append, offsetDigits, ha, hb, and_self, if_true, hdrop,
    hread, hvalue]

theorem zone_minus {cs rest : List Char} {n : Nat} (h : offsetDigits cs = .ok (n, rest)) :
    zone ('-' :: cs) = .ok (-n, rest) := by
  unfold zone
  simp [h, Except.map]

theorem zone_plus {cs rest : List Char} {n : Nat} (h : offsetDigits cs = .ok (n, rest)) :
    zone ('+' :: cs) = .ok (n, rest) := by
  unfold zone
  simp [h, Except.map]

/-- An offset is read by its sign, its hours and its minutes. -/
theorem zone_showOffset {minutes : Int} (h : minutes.natAbs < 1440) :
    zone (skipBlanks (showOffset minutes).toList) = .ok (minutes, []) := by
  have hread : offsetDigits ((padded 2 (minutes.natAbs / 60)).toList ++
      ':' :: (padded 2 (minutes.natAbs % 60)).toList) = .ok (minutes.natAbs, []) := by
    have hsum : minutes.natAbs / 60 * 60 + minutes.natAbs % 60 = minutes.natAbs := by omega
    rw [offsetDigits_padded (by omega) (by omega), hsum]
  unfold showOffset
  split
  · next hneg =>
    have hsigned : -(minutes.natAbs : Int) = minutes := by omega
    simp only [String.toList_append, List.append_assoc]
    show zone (skipBlanks ('-' :: ((padded 2 (minutes.natAbs / 60)).toList ++
      ':' :: (padded 2 (minutes.natAbs % 60)).toList))) = _
    rw [skipBlanks_cons_of_not (by decide), zone_minus hread, hsigned]
  · next hneg =>
    have hsigned : (minutes.natAbs : Int) = minutes := by omega
    simp only [String.toList_append, List.append_assoc]
    show zone (skipBlanks ('+' :: ((padded 2 (minutes.natAbs / 60)).toList ++
      ':' :: (padded 2 (minutes.natAbs % 60)).toList))) = _
    rw [skipBlanks_cons_of_not (by decide), zone_plus hread, hsigned]

/-- What a clock shows adds up to the instant that it shows. -/
theorem shown_eq (ht : t.IsProper) :
    let leap := if t.shownSecond = 60 then 1 else 0
    t.date.number * 86400 + (t.secondOfDay / 3600 * 3600 + t.secondOfDay / 60 % 60 * 60 +
        (t.shownSecond - leap) : Nat) = t.seconds ∧
      leap * nanosPerSecond + t.nanos % nanosPerSecond = t.nanos := by
  have hseconds := t.seconds_eq
  have hday : t.date.number = t.dayNumber := Date.number_ofNumber t.dayNumber
  have hlimit := ht.nanos_lt
  rw [hday]
  rcases ht.shownSecond_cases with ⟨hlt, hshown⟩ | ⟨hge, hends, hshown⟩
  · have hplain : t.shownSecond ≠ 60 := by omega
    simp only [hplain, if_false, Nat.mod_eq_of_lt hlt]
    omega
  · have hover : t.nanos % nanosPerSecond = t.nanos - nanosPerSecond := by
      rw [Nat.mod_eq_sub_mod hge, Nat.mod_eq_of_lt (by omega)]
    simp only [hshown, if_true, hover]
    omega

/-- What a clock shows is put together to the instant, with the offset taken off. -/
theorem assemble_shown (ht : t.IsProper) {minutes : Int} (hminutes : minutes.natAbs < 1440)
    (hhere : t.isInBounds = true) (hthere : (t.ahead (-minutes)).isInBounds = true) :
    assemble t.date (t.secondOfDay / 3600) (t.secondOfDay / 60 % 60) t.shownSecond
      (t.nanos % nanosPerSecond) minutes = .ok (t.ahead (-minutes)) := by
  have hvalid : t.date.isValid = true := Date.isValid_ofNumber t.dayNumber
  obtain ⟨hseconds, hnanos⟩ := shown_eq ht
  have hoff : (⟨t.seconds - minutes * 60, t.nanos⟩ : Instant) = t.ahead (-minutes) :=
    congrArg (Instant.mk · t.nanos) (by omega)
  have hsame : (⟨t.seconds, t.nanos⟩ : Instant) = t := rfl
  unfold assemble
  simp only [hseconds, hnanos, hoff, hsame, hvalid, hminutes, hhere, hthere, decide_true,
    Bool.and_self, if_true]

theorem shownSecond_le (ht : t.IsProper) : t.shownSecond ≤ 60 := by
  rcases ht.shownSecond_cases with ⟨-, hshown⟩ | ⟨-, -, hshown⟩ <;> omega

/-! ## Reading timestamps -/

/-- The months and days of dates are numbers of two digits. -/
theorem day_le (t : Instant) : 1 ≤ t.date.month ∧ t.date.month ≤ 12 ∧ 1 ≤ t.date.day ∧
    t.date.day ≤ 31 := by
  obtain ⟨hmonth, hmonths, hday, hsize⟩ := Date.isValid_iff.mp (Date.isValid_ofNumber t.dayNumber)
  have hlongest (year : Int) (month : Nat) : daysInMonth year month ≤ 31 := by
    unfold daysInMonth
    repeat' split
    all_goals decide
  exact ⟨hmonth, hmonths, hday, Nat.le_trans hsize (hlongest _ _)⟩

/-- An offset begins with its sign. -/
theorem showOffset_cons (minutes : Int) : ∃ c cs, (showOffset minutes).toList = c :: cs ∧
    c.isDigit = false ∧ c ≠ '.' := by
  unfold showOffset
  split <;> simp only [String.toList_append, List.append_assoc]
  · exact ⟨'-', _, rfl, by decide, by decide⟩
  · exact ⟨'+', _, rfl, by decide, by decide⟩

/-- What a clock shows is read back with the offset taken off. -/
theorem parse_shown (ht : t.IsProper) {minutes : Int} (hminutes : minutes.natAbs < 1440)
    (hhere : t.isInBounds = true) (hthere : (t.ahead (-minutes)).isInBounds = true) :
    parse (t.showLocal ++ showOffset minutes) = .ok (t.ahead (-minutes)) := by
  obtain ⟨hmonth, hmonths, hday, hdays⟩ := day_le t
  have hclock := t.secondOfDay_lt
  have hsecond := shownSecond_le ht
  have hfraction : fraction ((showFraction (t.nanos % nanosPerSecond)).toList ++
      (showOffset minutes).toList) =
        .ok (t.nanos % nanosPerSecond, (showOffset minutes).toList) := by
    obtain ⟨c, cs, hcons, hc, hpoint⟩ := showOffset_cons minutes
    rw [hcons]
    exact fraction_showFraction (Nat.mod_lt _ (by decide)) hc hpoint cs
  have hdash (cs : List Char) : mark '-' ('-' :: cs) = .ok cs := mark_self (by decide) cs
  have hcolon (cs : List Char) : mark ':' (':' :: cs) = .ok cs := mark_self (by decide) cs
  have hdivider (cs : List Char) : divider ('T' :: cs) = .ok cs := rfl
  unfold parse
  rw [String.toList_append, toList_showLocal]
  simp only [year_showYear (natAbs_year_le hhere), hdash, hcolon, hdivider, hfraction,
    twoDigits_padded hmonth hmonths (by omega), twoDigits_padded hday hdays (by omega),
    twoDigits_padded (Nat.zero_le _) (show t.secondOfDay / 3600 ≤ 23 by omega) (by omega),
    twoDigits_padded (Nat.zero_le _) (show t.secondOfDay / 60 % 60 ≤ 59 by omega) (by omega),
    twoDigits_padded (Nat.zero_le _) hsecond (by omega), zone_showOffset hminutes, bind,
    Except.bind]
  exact assemble_shown ht hminutes hhere hthere

/-- **What is written with any offset is read as the instant.** -/
theorem parse_writtenAt (ht : t.IsProper) {minutes : Int} (hminutes : minutes.natAbs < 1440)
    (hhere : (t.ahead minutes).isInBounds = true) (hthere : t.isInBounds = true) :
    parse (t.writtenAt minutes) = .ok t := by
  have hback : (t.ahead minutes).ahead (-minutes) = t :=
    congrArg (Instant.mk · t.nanos) (by simp only [Instant.ahead]; omega)
  have hread := parse_shown (ht.ahead minutes) hminutes hhere (hback.symm ▸ hthere)
  rwa [hback] at hread

/-- A year with a sign is not read strictly. -/
theorem exactDigits_sign {c : Char} (hc : c.isDigit = false) (n : Nat) (cs : List Char) :
    exactDigits 4 0 9999 (c :: ((padded 4 n).toList ++ cs)) = .error .invalid := by
  have hlength : 4 ≤ (padded 4 n).toList.length := by
    simp only [padded, String.toList_ofList, List.length_append, List.length_replicate]
    omega
  unfold exactDigits
  rw [if_neg (by simp only [List.length_cons, List.length_append]; omega), if_pos (by simp [hc])]

/-- **What is written with a `Z` is read strictly in years of four digits only**, and then as the
instant. -/
theorem parseStrict_describe (ht : t.IsProper) :
    parseStrict t.describe = if t.HasFourDigitYear then .ok t else .error .invalid := by
  unfold parseStrict describe
  rw [String.toList_append, toList_showLocal]
  split
  · next hyear =>
    obtain ⟨hmonth, hmonths, hday, hdays⟩ := day_le t
    obtain ⟨hfirst, hlast⟩ := id hyear
    have hclock := t.secondOfDay_lt
    have hsecond := shownSecond_le ht
    have hread (cs : List Char) : exactDigits 4 0 9999 ((showYear t.date.year).toList ++ cs) =
        .ok (t.date.year.toNat, cs) := by
      unfold showYear
      rw [if_pos (show 0 ≤ t.date.year ∧ t.date.year ≤ 9999 from hyear)]
      exact exactDigits_padded (by decide) (by omega) (Nat.zero_le _) (by omega) cs
    have hfraction : fraction ((showFraction (t.nanos % nanosPerSecond)).toList ++ "Z".toList) =
        .ok (t.nanos % nanosPerSecond, ['Z']) :=
      fraction_showFraction (Nat.mod_lt _ (by decide)) (by decide) (by decide) []
    have hdash (cs : List Char) : exactMark '-' ('-' :: cs) = .ok cs := rfl
    have hcolon (cs : List Char) : exactMark ':' (':' :: cs) = .ok cs := rfl
    have hdivider (cs : List Char) : divider ('T' :: cs) = .ok cs := rfl
    have hzone : exactZone ['Z'] = .ok (0, []) := rfl
    have hdate : (⟨(t.date.year.toNat : Int), t.date.month, t.date.day⟩ : Date) = t.date := by
      rw [Int.toNat_of_nonneg hfirst]
    have hback : t.ahead (-0) = t := congrArg (Instant.mk · t.nanos) (by omega)
    have hbounds := hyear.isInBounds
    simp only [hread, hdash, hcolon, hdivider, hfraction, hzone, hdate,
      exactDigits_padded (by decide : 0 < 2) (show t.date.month < 100 by omega) hmonth hmonths,
      exactDigits_padded (by decide : 0 < 2) (show t.date.day < 100 by omega) hday hdays,
      exactDigits_padded (by decide : 0 < 2) (show t.secondOfDay / 3600 < 100 by omega)
        (Nat.zero_le _) (show t.secondOfDay / 3600 ≤ 23 by omega),
      exactDigits_padded (by decide : 0 < 2) (show t.secondOfDay / 60 % 60 < 100 by omega)
        (Nat.zero_le _) (show t.secondOfDay / 60 % 60 ≤ 59 by omega),
      exactDigits_padded (by decide : 0 < 2) (show t.shownSecond < 100 by omega)
        (Nat.zero_le _) hsecond, bind, Except.bind]
    exact (assemble_shown ht (by decide) hbounds (hback.symm ▸ hbounds)).trans
      (congrArg Except.ok hback)
  · next hyear =>
    have hread (cs : List Char) :
        exactDigits 4 0 9999 ((showYear t.date.year).toList ++ cs) = .error .invalid := by
      unfold showYear
      rw [if_neg (show ¬(0 ≤ t.date.year ∧ t.date.year ≤ 9999) from hyear)]
      simp only [String.toList_append, List.append_assoc]
      split
      · exact exactDigits_sign (by decide) _ cs
      · exact exactDigits_sign (by decide) _ cs
    simp only [hread, bind, Except.bind]

/-! ## Only proper instants are read -/

theorem digitsValue_lt {cs : List Char} (h : ∀ c ∈ cs, c.isDigit = true) (value : Nat) :
    digitsValue value cs < (value + 1) * 10 ^ cs.length := by
  induction cs generalizing value with
  | nil => simp [digitsValue]
  | cons c cs ih =>
    obtain ⟨hc, hcs⟩ := List.forall_mem_cons.mp h
    have hdigit : digitValue c < 10 := by
      have hle : c.toNat ≤ 57 := toNat_le_of_isDigit hc
      show c.toNat - 48 < 10
      omega
    calc digitsValue value (c :: cs)
      _ = digitsValue (value * 10 + digitValue c) cs := digitsValue_cons value c cs
      _ < (value * 10 + digitValue c + 1) * 10 ^ cs.length := ih hcs _
      _ ≤ (value + 1) * 10 * 10 ^ cs.length := Nat.mul_le_mul_right _ (by omega)
      _ = (value + 1) * 10 ^ (c :: cs).length := by
        rw [List.length_cons, Nat.pow_succ', Nat.mul_assoc]

/-- A number that is read is that of the digits in front of the rest. -/
theorem number_ok {limit : Nat} {cs rest : List Char} {n : Nat}
    (h : number (some limit) cs = .ok (n, rest)) :
    ∃ digits, cs = digits ++ rest ∧ digits.length ≤ limit ∧ n < 10 ^ digits.length := by
  simp only [number] at h
  split at h
  · cases h
  · split at h
    · cases h
    · split at h
      · cases h
        have hdigits : ∀ c ∈ (cs.takeWhile Char.isDigit).take limit, c.isDigit = true :=
          fun c hc => List.all_eq_true.mp List.all_takeWhile c (List.mem_of_mem_take hc)
        have hprefix : (cs.takeWhile Char.isDigit).take limit <+: cs :=
          (List.take_prefix _ _).trans (List.takeWhile_prefix _)
        refine ⟨_, (List.prefix_iff_eq_append.mp hprefix).symm, List.length_take_le _ _, ?_⟩
        simpa using digitsValue_lt hdigits 0
      · cases h

/-- A fraction is less than a second. -/
theorem fraction_lt {cs rest : List Char} {n : Nat} (h : fraction cs = .ok (n, rest)) :
    n < nanosPerSecond := by
  unfold fraction at h
  split at h
  · split at h
    · cases h
    · next cs m rest' hread =>
      cases h
      obtain ⟨digits, rfl, hlimit, hvalue⟩ := number_ok hread
      have hwidth : (digits ++ rest').length - rest'.length = digits.length := by
        rw [List.length_append, Nat.add_sub_cancel]
      rw [hwidth]
      calc m * 10 ^ (9 - digits.length)
        _ < 10 ^ digits.length * 10 ^ (9 - digits.length) :=
          Nat.mul_lt_mul_of_pos_right hvalue (Nat.pow_pos (by decide))
        _ = 10 ^ 9 := by rw [← Nat.pow_add, Nat.add_sub_cancel' hlimit]
        _ = nanosPerSecond := rfl
  · cases h
    decide

/-- Only proper instants are put together. -/
theorem isProper_of_assemble {date : Date} {hour minute second nanos : Nat} {offset : Int}
    (hnanos : nanos < nanosPerSecond)
    (h : assemble date hour minute second nanos offset = .ok t) : t.IsProper := by
  have hpositive : 0 < nanosPerSecond := by decide
  by_cases hleap : second = 60
  · simp only [assemble, hleap, if_true] at h
    split at h
    · cases h
      exact ⟨by simp only; omega, fun _ => by simp only; omega⟩
    · cases h
  · simp only [assemble, hleap, if_false] at h
    split at h
    · cases h
      exact ⟨by simp only; omega, fun hge => absurd hge (by simp only; omega)⟩
    · cases h

/-- **Only proper instants are read.** -/
theorem isProper_of_parse {text : String} (h : parse text = .ok t) : t.IsProper := by
  unfold parse at h
  obtain ⟨⟨y, cs⟩, -, h⟩ := bind_ok h
  obtain ⟨cs, -, h⟩ := bind_ok h
  obtain ⟨⟨m, cs⟩, -, h⟩ := bind_ok h
  obtain ⟨cs, -, h⟩ := bind_ok h
  obtain ⟨⟨d, cs⟩, -, h⟩ := bind_ok h
  obtain ⟨cs, -, h⟩ := bind_ok h
  obtain ⟨⟨hour, cs⟩, -, h⟩ := bind_ok h
  obtain ⟨cs, -, h⟩ := bind_ok h
  obtain ⟨⟨minute, cs⟩, -, h⟩ := bind_ok h
  obtain ⟨cs, -, h⟩ := bind_ok h
  obtain ⟨⟨second, cs⟩, -, h⟩ := bind_ok h
  obtain ⟨⟨nanos, cs⟩, hnanos, h⟩ := bind_ok h
  obtain ⟨⟨offset, cs⟩, -, h⟩ := bind_ok h
  simp only at h
  split at h
  · exact isProper_of_assemble (fraction_lt hnanos) h
  · cases h

end Timestamp

end CredentialRelay
