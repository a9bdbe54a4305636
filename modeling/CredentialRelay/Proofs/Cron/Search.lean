import CredentialRelay.Proofs.Attempt
import CredentialRelay.Proofs.Cron.Expression
import CredentialRelay.Proofs.Time.Calendar

/-!
# The first occurrence

The next instant of an expression is its first occurrence after a given one: the search passes over
none, neither within a day nor from day to day, and it gives up only if there is none left.

* An expression that was read is regular, so its values come in ascending order and in bounds.
* On every level of the search, what is found is at most any occurrence that was in reach. Together
  with what is known of the levels below, that makes it the first one.

Results:
* `regular_of_parse`: an expression that was read is regular.
* `firstSecond?_le`: the search finds something by the time of any occurrence in reach.
* `next?_eq_some_iff`, `next?_eq_none_iff`: the next instant is the first occurrence behind.
-/

namespace CredentialRelay

namespace Cron

/-! ## Expressions that were read -/

theorem holds_of_partField {part : Part} {cs rest : List Char} {values : List Nat}
    (h : partField part cs = .ok (values, rest)) : part.Holds values := by
  obtain ⟨items, -, hvalues⟩ := partField_eq_ok_iff.mp h
  exact resolve_holds hvalues

/-- **An expression that was read is regular.** -/
theorem regular_of_parse {text : String} {c : Cron} (h : Cron.parse text = .ok c) :
    c.Regular := by
  obtain ⟨⟨seconds, cs⟩, hseconds, h⟩ := bind_ok h
  obtain ⟨⟨minutes, cs⟩, hminutes, h⟩ := bind_ok h
  obtain ⟨⟨hours, cs⟩, hhours, h⟩ := bind_ok h
  obtain ⟨⟨days, cs⟩, -, h⟩ := bind_ok h
  obtain ⟨⟨months, cs⟩, -, h⟩ := bind_ok h
  obtain ⟨⟨weekdays, cs⟩, -, h⟩ := bind_ok h
  have hregular {years : List Nat} (hyears : Part.year.Holds years) :
      Regular ⟨seconds, minutes, hours, days, months, weekdays, years⟩ :=
    ⟨holds_of_partField hseconds, holds_of_partField hminutes, holds_of_partField hhours, hyears⟩
  dsimp only at h
  split at h
  · next read hread =>
    split at h
    · cases h
      exact hregular (holds_of_partField hread)
    · cases h
  · split at h
    · cases h
      exact hregular Part.year.values_holds
    · cases h

/-! ## The times of a day -/

/-- The search through ascending values stops at the latest where there is something, and what it
finds before that is bounded if every value before has something bounded or nothing. -/
theorem findSome?_le {values : List Nat} (h : values.Pairwise (· < ·)) {n : Nat} (hn : n ∈ values)
    {f : Nat → Option Nat} {bound : Nat} (hfound : ∃ x, f n = some x ∧ x ≤ bound)
    (hbefore : ∀ m ∈ values, m < n → ∀ x, f m = some x → x ≤ bound) :
    ∃ x, values.findSome? f = some x ∧ x ≤ bound := by
  obtain ⟨x, hx, hle⟩ := hfound
  cases hall : values.findSome? f with
  | none => exact absurd (List.findSome?_eq_none_iff.mp hall n hn) (by simp [hx])
  | some y =>
    refine ⟨y, rfl, ?_⟩
    obtain ⟨before, m, after, rfl, hm, hnone⟩ := List.findSome?_eq_some_iff.mp hall
    rcases List.mem_append.mp hn with hn | hn
    · exact absurd (hnone n hn) (by simp [hx])
    · rcases List.mem_cons.mp hn with rfl | hn
      · exact Option.some.inj (hx.symm.trans hm) ▸ hle
      · refine hbefore m (List.mem_append_right _ List.mem_cons_self) ?_ y hm
        exact (List.pairwise_cons.mp (List.pairwise_append.mp h).2.1).1 n hn

/-- The search through a day finds nothing before the time at which it begins. -/
theorem le_of_firstTime? {c : Cron} {start time : Nat} (h : c.firstTime? start = some time) :
    start ≤ time := by
  obtain ⟨hour, -, h⟩ := List.exists_of_findSome?_eq_some h
  split at h
  · cases h
  obtain ⟨minute, -, h⟩ := List.exists_of_findSome?_eq_some h
  split at h
  · cases h
  obtain ⟨second, -, h⟩ := List.exists_of_findSome?_eq_some h
  dsimp only at h
  split at h
  · cases h
  · cases h
    omega

/-- **The search through a day** finds something by any time that matches from its start on. -/
theorem firstTime?_le {c : Cron} (hc : c.Regular) {start time : Nat}
    (h : c.matchesTime time = true) (hle : start ≤ time) :
    ∃ found, c.firstTime? start = some found ∧ found ≤ time := by
  obtain ⟨hhour, hminute, hsecond⟩ := matchesTime_iff.mp h
  -- What is found in an earlier minute or hour is earlier, since seconds and minutes are in bounds.
  have hinMinute {hour minute found : Nat} (hfound : (c.seconds.findSome? fun second =>
      let time := hour * 3600 + minute * 60 + second
      if time < start then none else some time) = some found) :
      found < hour * 3600 + (minute + 1) * 60 := by
    obtain ⟨second, hmem, heq⟩ := List.exists_of_findSome?_eq_some hfound
    have hlast : second ≤ 59 := (hc.seconds.bounds second hmem).2
    dsimp only at heq
    split at heq
    · cases heq
    · cases heq
      omega
  refine findSome?_le hc.hours.ascending hhour ?_ fun hour _ hlt found hfound => ?_
  · rw [if_neg (by omega)]
    refine findSome?_le hc.minutes.ascending hminute ?_ fun minute _ hlt found hfound => ?_
    · rw [if_neg (by omega)]
      refine findSome?_le hc.seconds.ascending hsecond ⟨time, ?_, Nat.le_refl time⟩
        fun second _ hlt found hfound => ?_
      · rw [show time / 3600 * 3600 + time / 60 % 60 * 60 + time % 60 = time by omega]
        exact if_neg (by omega)
      · dsimp only at hfound
        split at hfound
        · cases hfound
        · cases hfound
          omega
    · split at hfound
      · cases hfound
      · have := hinMinute hfound
        omega
  · split at hfound
    · cases hfound
    obtain ⟨minute, hmem, hfound⟩ := List.exists_of_findSome?_eq_some hfound
    have hlast : minute ≤ 59 := (hc.minutes.bounds minute hmem).2
    split at hfound
    · cases hfound
    · have := hinMinute hfound
      omega

/-! ## Days -/

/-- An expression can fire on no day behind the last one. -/
theorem le_lastDay_of_matchesDay {c : Cron} (hc : c.Regular) {day : Int}
    (h : c.matchesDay day = true) : day ≤ lastDay := by
  simp only [matchesDay, Bool.and_eq_true, decide_eq_true_eq] at h
  have hyear : (Date.ofNumber day).year.toNat ≤ 2100 :=
    (hc.years.bounds _ (List.contains_iff_mem.mp h.2)).2
  have hends : day + Date.epoch <
      daysBeforeYear (Date.ofNumber day).year + daysInYear (Date.ofNumber day).year :=
    (yearOf_bounds (day + Date.epoch)).2
  rw [← daysBeforeYear_succ] at hends
  have hle : daysBeforeYear ((Date.ofNumber day).year + 1) ≤ daysBeforeYear 2101 :=
    daysBeforeYear_mono (by omega)
  have hlast : daysBeforeYear 2101 = lastDay + 1 + Date.epoch := by decide
  omega

theorem le_of_firstDay? {c : Cron} : ∀ {fuel : Nat} {day found : Int},
    c.firstDay? fuel day = some found → day ≤ found
  | fuel + 1, day, found, h => by
    unfold firstDay? at h
    split at h
    · cases h
      exact Int.le_refl day
    · exact Int.le_trans (Int.le_add_of_nonneg_right (by decide)) (le_of_firstDay? h)

/-- The search through the days finds something by any day in reach that matches. -/
theorem firstDay?_le {c : Cron} : ∀ {fuel : Nat} {day d : Int}, c.matchesDay d = true → day ≤ d →
    d < day + fuel → ∃ found, c.firstDay? fuel day = some found ∧ found ≤ d
  | 0, day, d, _, hle, hlt => absurd hlt (by omega)
  | fuel + 1, day, d, h, hle, hlt => by
    unfold firstDay?
    split
    · exact ⟨day, rfl, hle⟩
    · next hday =>
      have hne : day ≠ d := fun heq => hday (heq ▸ h)
      exact firstDay?_le h (by omega) (by omega)

/-! ## Seconds -/

/-- The search finds nothing before the second at which it begins. -/
theorem le_of_firstSecond? {c : Cron} {start found : Int}
    (h : c.firstSecond? start = some found) : start ≤ found := by
  unfold firstSecond? at h
  dsimp only at h
  split at h
  · next time htoday =>
    cases h
    split at htoday
    · have := le_of_firstTime? htoday
      omega
    · cases htoday
  · obtain ⟨day, hday, h⟩ := Option.bind_eq_some_iff.mp h
    obtain ⟨time, -, h⟩ := Option.bind_eq_some_iff.mp h
    cases h
    have := le_of_firstDay? hday
    omega

/-- **The search finds something by any occurrence** from its start on. -/
theorem firstSecond?_le {c : Cron} (hc : c.Regular) {start : Int} {t : Instant} (h : c.Occurs t)
    (hle : start ≤ t.seconds) : ∃ found, c.firstSecond? start = some found ∧ found ≤ t.seconds := by
  obtain ⟨-, hday, htime⟩ := h
  have hseconds := t.seconds_eq
  have hlt := t.secondOfDay_lt
  unfold firstSecond?
  dsimp only
  generalize htoday : (if c.matchesDay (start / 86400) = true then
    c.firstTime? (start % 86400).toNat else none) = today
  cases today with
  | some time =>
    refine ⟨_, rfl, ?_⟩
    split at htoday
    · by_cases hsame : start / 86400 = t.dayNumber
      · have hreached : (start % 86400).toNat ≤ t.secondOfDay := by omega
        obtain ⟨found, hfound, hle⟩ := firstTime?_le hc htime hreached
        obtain rfl : found = time := Option.some.inj (hfound.symm.trans htoday)
        omega
      · have := (firstTime?_ok hc htoday).2
        omega
    · cases htoday
  | none =>
    have hlater : start / 86400 < t.dayNumber := by
      refine Int.lt_iff_le_and_ne.mpr ⟨by omega, fun hsame => ?_⟩
      have hreached : (start % 86400).toNat ≤ t.secondOfDay := by omega
      obtain ⟨found, hfound, -⟩ := firstTime?_le hc htime hreached
      rw [hsame, if_pos hday, hfound] at htoday
      cases htoday
    have hlast := le_lastDay_of_matchesDay hc hday
    have hreached : t.dayNumber < start / 86400 + 1 + (lastDay - start / 86400).toNat := by omega
    obtain ⟨day, hfoundDay, hdayLe⟩ := firstDay?_le hday hlater hreached
    obtain ⟨time, hfoundTime, htimeLe⟩ := firstTime?_le hc htime (Nat.zero_le _)
    refine ⟨day * 86400 + time, by rw [hfoundDay, hfoundTime]; rfl, ?_⟩
    omega

/-! ## Instants -/

variable {c : Cron} {now t : Instant}

/-- From year 0 on, the search begins at the second behind an instant, or at the first second that
can be an occurrence. -/
theorem next?_eq (hyear : 0 ≤ now.date.year) :
    c.next? now = (c.firstSecond? (max (now.seconds + 1) 0)).map Instant.ofSeconds := by
  have hnext : 0 ≤ (Date.ofNumber ((now.seconds + 1) / 86400)).year := by
    refine Int.le_trans hyear (yearOf_mono ?_)
    unfold Instant.dayNumber
    omega
  unfold next?
  exact if_neg (Int.not_lt.mpr hnext)

/-- **The next instant is the first occurrence behind.** -/
theorem next?_eq_some_iff (hc : c.Regular) (hyear : 0 ≤ now.date.year) :
    c.next? now = some t ↔ c.Occurs t ∧ now.before t = true ∧
      ∀ u, c.Occurs u → now.before u = true → u.before t = false := by
  have hfound {found : Int} (h : c.firstSecond? (max (now.seconds + 1) 0) = some found) :
      c.Occurs (.ofSeconds found) ∧ now.seconds < found :=
    ⟨firstSecond?_ok hc h, by have := le_of_firstSecond? h; omega⟩
  have hreach {u : Instant} (hu : c.Occurs u) (hbehind : now.before u = true) :
      ∃ found, c.firstSecond? (max (now.seconds + 1) 0) = some found ∧ found ≤ u.seconds := by
    refine firstSecond?_le hc hu ?_
    have hday := (day_nonneg_of_matchesDay hc hu.2.1).1
    have hseconds := u.seconds_eq
    have hlt := (Instant.before_iff_of_whole hu.1).mp hbehind
    omega
  rw [next?_eq hyear, Option.map_eq_some_iff]
  constructor
  · rintro ⟨found, h, rfl⟩
    obtain ⟨hoccurs, hbehind⟩ := hfound h
    refine ⟨hoccurs, (Instant.before_iff_of_whole rfl).mpr hbehind, fun u hu hlater => ?_⟩
    obtain ⟨found', h', hle⟩ := hreach hu hlater
    obtain rfl : found' = found := Option.some.inj (h'.symm.trans h)
    rw [Bool.eq_false_iff, ne_eq, Instant.before_iff_of_whole rfl]
    exact Int.not_lt.mpr hle
  · rintro ⟨hoccurs, hbehind, hfirst⟩
    obtain ⟨found, h, hle⟩ := hreach hoccurs hbehind
    obtain ⟨hoccurs', hbehind'⟩ := hfound h
    have hge := hfirst _ hoccurs' ((Instant.before_iff_of_whole rfl).mpr hbehind')
    rw [Bool.eq_false_iff, ne_eq, Instant.before_iff_of_whole hoccurs.1] at hge
    have heq : found = t.seconds := Int.le_antisymm hle (Int.not_lt.mp hge)
    exact ⟨found, h, Instant.eq_of_whole rfl hoccurs.1 heq⟩

/-- There is no next instant exactly if there is no occurrence behind. -/
theorem next?_eq_none_iff (hc : c.Regular) (hyear : 0 ≤ now.date.year) :
    c.next? now = none ↔ ∀ u, c.Occurs u → now.before u = false := by
  rw [next?_eq hyear, Option.map_eq_none_iff]
  constructor
  · intro h u hu
    refine Bool.eq_false_iff.mpr fun hbehind => ?_
    have hday := (day_nonneg_of_matchesDay hc hu.2.1).1
    have hseconds := u.seconds_eq
    have hlt := (Instant.before_iff_of_whole hu.1).mp hbehind
    have hreached : max (now.seconds + 1) 0 ≤ u.seconds := by omega
    obtain ⟨found, hfound, -⟩ := firstSecond?_le hc hu hreached
    rw [h] at hfound
    cases hfound
  · intro h
    cases hfound : c.firstSecond? (max (now.seconds + 1) 0) with
    | none => rfl
    | some found =>
      have hle := le_of_firstSecond? hfound
      have hbehind := h _ (firstSecond?_ok hc hfound)
      rw [Bool.eq_false_iff, ne_eq, Instant.before_iff_of_whole rfl] at hbehind
      exact absurd (show now.seconds < found by omega) hbehind

end Cron

end CredentialRelay
