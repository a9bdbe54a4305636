import CredentialRelay.Schedule.Descriptor

/-!
# When a schedule fires

A schedule fires at an instant if that is the next one after some other. An expression is searched
from the second after an instant on, day by day, so it fires exactly at its occurrences.

* `Cron.Regular`: every field has its values in ascending order and in bounds, as they are read.
* `Schedule.FiresAt`: some instant has this one as its next.

Results:
* `firstTime?_ok`: what the search through a day finds, matches.
* `firstTime?_self`: the search through a day finds a time that matches if it begins there.
* `firesAt_cron_iff`: an expression fires exactly at its occurrences.
-/

namespace CredentialRelay

/-- Values of a part in ascending order and in bounds. -/
structure Cron.Part.Holds (part : Cron.Part) (values : List Nat) : Prop where
  ascending : values.Pairwise (· < ·)
  bounds : ∀ n ∈ values, part.first ≤ n ∧ n ≤ part.last

namespace Cron

theorem Part.values_holds (part : Part) : part.Holds part.values :=
  ⟨List.pairwise_lt_range', fun _ hn => Part.mem_values_iff.mp hn⟩

theorem fieldValues_holds (part : Part) (progressions : List Progression) :
    part.Holds (fieldValues part progressions) :=
  ⟨part.values_holds.ascending.filter _,
    fun _ hn => part.values_holds.bounds _ (List.mem_filter.mp hn).1⟩

theorem resolve_holds {part : Part} {items : List Item} {values : List Nat}
    (h : resolve part items = .ok values) : part.Holds values := by
  unfold resolve at h
  cases hall : items.mapM (Item.progression part) with
  | error fault =>
    rw [hall] at h
    cases h
  | ok progressions =>
    rw [hall] at h
    cases h
    exact fieldValues_holds part progressions

/-- Every field has its values in ascending order and in bounds. -/
structure Regular (c : Cron) : Prop where
  seconds : Part.second.Holds c.seconds
  minutes : Part.minute.Holds c.minutes
  hours : Part.hour.Holds c.hours
  years : Part.year.Holds c.years

/-! ## The times of a day -/

theorem matchesTime_iff {c : Cron} {time : Nat} : c.matchesTime time = true ↔
    time / 3600 ∈ c.hours ∧ time / 60 % 60 ∈ c.minutes ∧ time % 60 ∈ c.seconds := by
  simp [matchesTime, and_assoc]

/-- What the search through a day finds, matches. -/
theorem firstTime?_ok {c : Cron} (hc : c.Regular) {start time : Nat}
    (h : c.firstTime? start = some time) : c.matchesTime time = true ∧ time < 86400 := by
  obtain ⟨hour, hhour, h⟩ := List.exists_of_findSome?_eq_some h
  split at h
  · cases h
  obtain ⟨minute, hminute, h⟩ := List.exists_of_findSome?_eq_some h
  split at h
  · cases h
  obtain ⟨second, hsecond, h⟩ := List.exists_of_findSome?_eq_some h
  simp only at h
  split at h
  · cases h
  cases h
  have hlastHour : hour ≤ 23 := (hc.hours.bounds hour hhour).2
  have hlastMinute : minute ≤ 59 := (hc.minutes.bounds minute hminute).2
  have hlastSecond : second ≤ 59 := (hc.seconds.bounds second hsecond).2
  rw [matchesTime_iff, show (hour * 3600 + minute * 60 + second) / 3600 = hour by omega,
    show (hour * 3600 + minute * 60 + second) / 60 % 60 = minute by omega,
    show (hour * 3600 + minute * 60 + second) % 60 = second by omega]
  exact ⟨⟨hhour, hminute, hsecond⟩, by omega⟩

/-- The search through ascending values passes over lesser ones that have nothing. -/
theorem findSome?_of_ascending {β : Type} {values : List Nat} (h : values.Pairwise (· < ·))
    {n : Nat} (hn : n ∈ values) {f : Nat → Option β} {found : β} (hfound : f n = some found)
    (hbefore : ∀ m ∈ values, m < n → f m = none) : values.findSome? f = some found := by
  obtain ⟨before, after, rfl⟩ := List.append_of_mem hn
  refine List.findSome?_eq_some_iff.mpr ⟨before, n, after, rfl, hfound, fun m hm => ?_⟩
  exact hbefore m (List.mem_append_left _ hm)
    ((List.pairwise_append.mp h).2.2 m hm n List.mem_cons_self)

/-- The search through a day finds a time that matches if it begins there. -/
theorem firstTime?_self {c : Cron} (hc : c.Regular) {time : Nat}
    (h : c.matchesTime time = true) : c.firstTime? time = some time := by
  obtain ⟨hhour, hminute, hsecond⟩ := matchesTime_iff.mp h
  refine findSome?_of_ascending hc.hours.ascending hhour ?_ fun hour _ hlt => if_pos (by omega)
  rw [if_neg (by omega)]
  refine findSome?_of_ascending hc.minutes.ascending hminute ?_ fun minute _ hlt =>
    if_pos (by omega)
  rw [if_neg (by omega)]
  have htime : time / 3600 * 3600 + time / 60 % 60 * 60 + time % 60 = time := by omega
  refine findSome?_of_ascending hc.seconds.ascending hsecond ?_ fun second _ hlt =>
    if_pos (by omega)
  simp only [htime, Nat.lt_irrefl, if_false]

/-! ## Days -/

/-- Before 1970, the calendar has lesser years. -/
theorem year_ofNumber_lt {day : Int} (h : day < 0) : (Date.ofNumber day).year < 1970 := by
  show Date.yearOf (day + Date.epoch) < 1970
  simp only [Date.yearOf, Date.epoch]
  omega

/-- An expression can fire only on days from 1970 on. -/
theorem day_nonneg_of_matchesDay {c : Cron} (hc : c.Regular) {day : Int}
    (h : c.matchesDay day = true) : 0 ≤ day ∧ 0 ≤ (Date.ofNumber day).year := by
  simp only [matchesDay, Bool.and_eq_true, decide_eq_true_eq] at h
  obtain ⟨⟨-, hyear⟩, hmem⟩ := h
  have hfirst : 1970 ≤ (Date.ofNumber day).year.toNat :=
    (hc.years.bounds _ (List.contains_iff_mem.mp hmem)).1
  refine ⟨Int.not_lt.mp fun hneg => ?_, hyear⟩
  have := year_ofNumber_lt hneg
  omega

theorem matchesDay_of_firstDay? {c : Cron} : ∀ {fuel : Nat} {day found : Int},
    c.firstDay? fuel day = some found → c.matchesDay found = true
  | fuel + 1, day, found, h => by
    unfold firstDay? at h
    split at h
    · next hday =>
      cases h
      exact hday
    · exact matchesDay_of_firstDay? h

/-! ## Seconds -/

/-- What the search finds, matches. -/
theorem firstSecond?_ok {c : Cron} (hc : c.Regular) {start found : Int}
    (h : c.firstSecond? start = some found) : c.Occurs (Instant.ofSeconds found) := by
  have hoccurs {day : Int} {time : Nat} (hday : c.matchesDay day = true)
      (htime : c.matchesTime time = true ∧ time < 86400) :
      c.Occurs (Instant.ofSeconds (day * 86400 + time)) := by
    have hlt := htime.2
    refine ⟨rfl, ?_, ?_⟩
    · show c.matchesDay ((day * 86400 + time) / 86400) = true
      rwa [show (day * 86400 + (time : Int)) / 86400 = day by omega]
    · show c.matchesTime ((day * 86400 + time) % 86400).toNat = true
      rw [show ((day * 86400 + (time : Int)) % 86400).toNat = time by omega]
      exact htime.1
  unfold firstSecond? at h
  simp only at h
  split at h
  · next time htoday =>
    cases h
    split at htoday
    · next hday => exact hoccurs hday (firstTime?_ok hc htoday)
    · cases htoday
  · obtain ⟨day, hday, h⟩ := Option.bind_eq_some_iff.mp h
    obtain ⟨time, htime, h⟩ := Option.bind_eq_some_iff.mp h
    cases h
    exact hoccurs (matchesDay_of_firstDay? hday) (firstTime?_ok hc htime)

/-- The search finds an occurrence if it begins there. -/
theorem firstSecond?_self {c : Cron} (hc : c.Regular) {t : Instant} (h : c.Occurs t) :
    c.firstSecond? t.seconds = some t.seconds := by
  have hday : c.matchesDay (t.seconds / 86400) = true := h.2.1
  have htime : c.matchesTime (t.seconds % 86400).toNat = true := h.2.2
  unfold firstSecond?
  simp only [hday, if_true, firstTime?_self hc htime]
  congr 1
  omega

end Cron

/-- A schedule fires at an instant if it is the next one after some instant. -/
def Schedule.FiresAt (s : Schedule) (t : Instant) : Prop :=
  ∃ now, s.next? now = some t

/-- **An expression fires exactly at its occurrences.** -/
theorem Schedule.firesAt_cron_iff {source : String} {c : Cron} (hc : c.Regular) {t : Instant} :
    (Schedule.cron source c).FiresAt t ↔ c.Occurs t := by
  constructor
  · rintro ⟨now, hnext⟩
    replace hnext : c.next? now = some t := hnext
    unfold Cron.next? at hnext
    simp only at hnext
    split at hnext
    · cases hnext
    · obtain ⟨found, hfound, rfl⟩ := Option.map_eq_some_iff.mp hnext
      exact Cron.firstSecond?_ok hc hfound
  · intro h
    obtain ⟨hday, hyear⟩ := Cron.day_nonneg_of_matchesDay hc h.2.1
    replace hyear : 0 ≤ (Date.ofNumber (t.seconds / 86400)).year := hyear
    have hseconds : 0 ≤ t.seconds := by
      unfold Instant.dayNumber at hday
      omega
    refine ⟨⟨t.seconds - 1, 0⟩, ?_⟩
    show c.next? ⟨t.seconds - 1, 0⟩ = some t
    unfold Cron.next?
    simp only [Int.sub_add_cancel]
    rw [if_neg (Int.not_lt.mpr hyear), Int.max_eq_left hseconds, Cron.firstSecond?_self hc h]
    exact congrArg some (by cases t; cases h.1; rfl)

end CredentialRelay
