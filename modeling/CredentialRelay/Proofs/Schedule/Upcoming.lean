import CredentialRelay.Proofs.Cron.Search

/-!
# Upcoming instants

The instants at which an expression fires next are enumerated one after another, each as the first
one behind the last. Nothing that matches is left out on the way, and the enumeration ends early
only if nothing is left to match.

* `Cron.Matches`: a clock shows, at an instant, a date and a time whose every part is among the
  values of its field. It does not mention the search.
* `Cron.Enumerates`: what the next instants of an expression are, from first to last.

Results:
* `Cron.occurs_iff_matches`: the occurrences that are searched for are the instants that match.
* `upcoming_add`: an enumeration goes on from its last instant.
* `upcoming_enumerates`: the upcoming instants of every expression that is accepted.
-/

namespace CredentialRelay

/-! ## Instants that match -/

namespace Cron

/-- Whether every part of a reading is among the values of its field. -/
structure Admits (c : Cron) (r : Reading) : Prop where
  second : r.second ∈ c.seconds
  minute : r.minute ∈ c.minutes
  hour : r.hour ∈ c.hours
  day : r.date.day ∈ c.days
  month : r.date.month ∈ c.months
  weekday : r.date.weekday ∈ c.weekdays
  year : ∃ year ∈ c.years, r.date.year = year

/-- Whether an instant is a whole second at which a clock shows a reading with matching parts. -/
def Matches (c : Cron) (t : Instant) : Prop :=
  ∃ r : Reading, r.instant = t ∧ c.Admits r

theorem matchesDay_iff {c : Cron} {day : Int} : c.matchesDay day = true ↔
    (Date.ofNumber day).weekday ∈ c.weekdays ∧ (Date.ofNumber day).month ∈ c.months ∧
      (Date.ofNumber day).day ∈ c.days ∧ ∃ year ∈ c.years, (Date.ofNumber day).year = year := by
  have hyear : (0 ≤ (Date.ofNumber day).year ∧ (Date.ofNumber day).year.toNat ∈ c.years) ↔
      ∃ year ∈ c.years, (Date.ofNumber day).year = (year : Int) := by
    constructor
    · rintro ⟨hnonneg, hmem⟩
      exact ⟨_, hmem, (Int.toNat_of_nonneg hnonneg).symm⟩
    · rintro ⟨year, hmem, heq⟩
      rw [heq]
      exact ⟨Int.natCast_nonneg year, hmem⟩
  rw [← hyear, Date.weekday, Date.number_ofNumber]
  simp [matchesDay, and_assoc]

/-- **The occurrences that are searched for are the instants that match.** -/
theorem occurs_iff_matches {c : Cron} {t : Instant} : c.Occurs t ↔ c.Matches t := by
  have hadmits : c.matchesDay t.dayNumber = true ∧ c.matchesTime t.secondOfDay = true ↔
      c.Admits t.reading := by
    rw [matchesDay_iff, matchesTime_iff]
    constructor
    · rintro ⟨⟨hweekday, hmonth, hday, hyear⟩, hhour, hminute, hsecond⟩
      exact ⟨hsecond, hminute, hhour, hday, hmonth, hweekday, hyear⟩
    · rintro ⟨hsecond, hminute, hhour, hday, hmonth, hweekday, hyear⟩
      exact ⟨⟨hweekday, hmonth, hday, hyear⟩, hhour, hminute, hsecond⟩
  unfold Occurs Matches
  rw [hadmits]
  constructor
  · rintro ⟨hnanos, h⟩
    exact ⟨t.reading, Instant.instant_reading hnanos, h⟩
  · rintro ⟨r, rfl, h⟩
    rw [r.reading_instant]
    exact ⟨rfl, h⟩

/-- An expression matches in no year before the first one. -/
theorem Matches.year_nonneg {c : Cron} {t : Instant} (h : c.Matches t) : 0 ≤ t.date.year := by
  obtain ⟨r, rfl, h⟩ := h
  obtain ⟨year, -, heq⟩ := h.year
  have hdate : r.instant.date = r.date := congrArg Reading.date r.reading_instant
  rw [hdate, heq]
  exact Int.natCast_nonneg year

/-- What the next `count` instants of an expression after `now` are. -/
structure Enumerates (c : Cron) (now : Instant) (count : Nat) (times : List Instant) : Prop where
  length_le : times.length ≤ count
  ascending : times.Pairwise fun t u => t.before u = true
  sound : ∀ t ∈ times, now.before t = true ∧ c.Matches t
  /-- Nothing is left out up to the last one. -/
  complete : ∀ last, times.getLast? = some last →
    ∀ t, c.Matches t → now.before t = true → t.before last = true → t ∈ times
  /-- There are fewer of them only if nothing is left. -/
  exhausted : times.length < count → ∀ t, c.Matches t → now.before t = true → t ∈ times

end Cron

namespace Schedule

variable {c : Cron} {source : String}

/-! ## Enumerations -/

theorem upcoming_of_next?_eq_none {s : Schedule} {now : Instant} (h : s.next? now = none) :
    ∀ count, s.upcoming count now = []
  | 0 => rfl
  | count + 1 => by rw [upcoming, h]

theorem upcoming_of_next?_eq_some {s : Schedule} {now t : Instant} (h : s.next? now = some t)
    (count : Nat) : s.upcoming (count + 1) now = t :: s.upcoming count t := by
  rw [upcoming, h]

/-- **An enumeration goes on from its last instant.** -/
theorem upcoming_add (s : Schedule) (m : Nat) : ∀ {n : Nat} {now last : Instant},
    (s.upcoming n now).getLast? = some last →
    s.upcoming (n + m) now = s.upcoming n now ++ s.upcoming m last
  | n + 1, now, last, h => by
    cases hnext : s.next? now with
    | none =>
      rw [upcoming_of_next?_eq_none hnext] at h
      cases h
    | some t =>
      rw [upcoming_of_next?_eq_some hnext] at h
      rw [Nat.add_right_comm, upcoming_of_next?_eq_some hnext, upcoming_of_next?_eq_some hnext,
        List.cons_append]
      refine congrArg (t :: ·) ?_
      cases hmore : s.upcoming n t with
      | cons u more =>
        rw [hmore, List.getLast?_cons_cons, ← hmore] at h
        rw [upcoming_add s m h, hmore]
      | nil =>
        obtain rfl : t = last := by
          rw [hmore] at h
          exact Option.some.inj h
        cases n with
        | zero => rw [Nat.zero_add, List.nil_append]
        | succ n =>
          have hend : s.next? t = none := by
            cases hend : s.next? t with
            | none => rfl
            | some u =>
              rw [upcoming_of_next?_eq_some hend] at hmore
              cases hmore
          rw [upcoming_of_next?_eq_none hend, upcoming_of_next?_eq_none hend, List.nil_append]

theorem length_upcoming_le (s : Schedule) : ∀ (count : Nat) (now : Instant),
    (s.upcoming count now).length ≤ count
  | 0, _ => Nat.le_refl 0
  | count + 1, now => by
    cases hnext : s.next? now with
    | none =>
      rw [upcoming_of_next?_eq_none hnext]
      exact Nat.zero_le _
    | some t =>
      rw [upcoming_of_next?_eq_some hnext, List.length_cons]
      exact Nat.succ_le_succ (s.length_upcoming_le count t)

/-! ## Expressions -/

/-- The next instant of an expression is the first one behind that matches. -/
theorem next?_cron_eq_some (hc : c.Regular) {now t : Instant} (hyear : 0 ≤ now.date.year)
    (h : (Schedule.cron source c).next? now = some t) : c.Matches t ∧ now.before t = true ∧
      ∀ u, c.Matches u → now.before u = true → u = t ∨ t.before u = true := by
  obtain ⟨hoccurs, hbehind, hfirst⟩ := (Cron.next?_eq_some_iff hc hyear).mp h
  refine ⟨Cron.occurs_iff_matches.mp hoccurs, hbehind, fun u hu hlater => ?_⟩
  have hu := Cron.occurs_iff_matches.mpr hu
  have hge := hfirst u hu hlater
  rw [Bool.eq_false_iff, ne_eq, Instant.before_iff_of_whole hoccurs.1] at hge
  rw [Instant.before_iff_of_whole hu.1]
  rcases Int.lt_or_eq_of_le (Int.not_lt.mp hge) with hlt | heq
  · exact .inr hlt
  · exact .inl (Instant.eq_of_whole hu.1 hoccurs.1 heq.symm)

/-- Every instant of an enumeration is behind and matches, and they come in order. -/
theorem upcoming_sound (source : String) (hc : c.Regular) : ∀ (count : Nat) {now : Instant},
    0 ≤ now.date.year →
    (∀ t ∈ (Schedule.cron source c).upcoming count now, now.before t = true ∧ c.Matches t) ∧
      ((Schedule.cron source c).upcoming count now).Pairwise fun t u => t.before u = true
  | 0, _, _ => ⟨nofun, .nil⟩
  | count + 1, now, hyear => by
    cases hnext : (Schedule.cron source c).next? now with
    | none =>
      rw [upcoming_of_next?_eq_none hnext]
      exact ⟨nofun, .nil⟩
    | some t =>
      obtain ⟨hmatches, hbehind, -⟩ := next?_cron_eq_some hc hyear hnext
      obtain ⟨hsound, hascending⟩ := upcoming_sound source hc count hmatches.year_nonneg
      rw [upcoming_of_next?_eq_some hnext]
      refine ⟨List.forall_mem_cons.mpr ⟨⟨hbehind, hmatches⟩, fun u hu => ?_⟩,
        List.pairwise_cons.mpr ⟨fun u hu => (hsound u hu).1, hascending⟩⟩
      exact ⟨Instant.before_trans hbehind (hsound u hu).1, (hsound u hu).2⟩

/-- What matches and is no part of an enumeration is behind all of it, and it is full. -/
theorem mem_upcoming_or_full (source : String) (hc : c.Regular) : ∀ (count : Nat) {now : Instant},
    0 ≤ now.date.year → ∀ {u : Instant}, c.Matches u → now.before u = true →
    u ∈ (Schedule.cron source c).upcoming count now ∨
      ((Schedule.cron source c).upcoming count now).length = count ∧
        ∀ t ∈ (Schedule.cron source c).upcoming count now, t.before u = true
  | 0, _, _, _, _, _ => .inr ⟨rfl, nofun⟩
  | count + 1, now, hyear, u, hu, hlater => by
    cases hnext : (Schedule.cron source c).next? now with
    | none =>
      have hnone := (Cron.next?_eq_none_iff hc hyear).mp hnext u (Cron.occurs_iff_matches.mpr hu)
      rw [hlater] at hnone
      cases hnone
    | some t =>
      obtain ⟨hmatches, -, hfirst⟩ := next?_cron_eq_some hc hyear hnext
      rw [upcoming_of_next?_eq_some hnext]
      rcases hfirst u hu hlater with rfl | hbehind
      · exact .inl List.mem_cons_self
      · rcases mem_upcoming_or_full source hc count hmatches.year_nonneg hu hbehind with
          hmem | ⟨hfull, hall⟩
        · exact .inl (List.mem_cons_of_mem t hmem)
        · exact .inr ⟨congrArg (· + 1) hfull, List.forall_mem_cons.mpr ⟨hbehind, hall⟩⟩

/-- The expression of a schedule that was read was read itself. -/
theorem parse_source_of_parse {text : String} (h : parse text = .ok (.cron source c)) :
    Cron.parse source = .ok c := by
  rcases parse_ok h with ⟨-, interval, -, heq⟩ | ⟨source', times, -, hread, heq⟩
  · cases heq
  · cases heq
    exact hread

/-- **The upcoming instants of every expression that is accepted**, from any instant of a year from
0 on, are the instants that match, in order and without gaps, and an enumeration may be broken off
and taken up again at any of its instants. -/
theorem upcoming_enumerates {text : String} (h : parse text = .ok (.cron source c)) {now : Instant}
    (hyear : 0 ≤ now.date.year) :
    (∀ count, c.Enumerates now count ((Schedule.cron source c).upcoming count now)) ∧
      ∀ n m last, ((Schedule.cron source c).upcoming n now).getLast? = some last →
        (Schedule.cron source c).upcoming (n + m) now =
          (Schedule.cron source c).upcoming n now ++ (Schedule.cron source c).upcoming m last := by
  have hc := Cron.regular_of_parse (parse_source_of_parse h)
  refine ⟨fun count => ?_, fun n m last hlast => upcoming_add _ m hlast⟩
  obtain ⟨hsound, hascending⟩ := upcoming_sound source hc count hyear
  refine ⟨length_upcoming_le _ count now, hascending, hsound, ?_, ?_⟩
  · intro last hlast t ht hbehind hbefore
    rcases mem_upcoming_or_full source hc count hyear ht hbehind with hmem | ⟨-, hall⟩
    · exact hmem
    · have hafter := hall last (List.mem_of_getLast? hlast)
      rw [Instant.before_asymm hbefore] at hafter
      cases hafter
  · intro hlt t ht hbehind
    rcases mem_upcoming_or_full source hc count hyear ht hbehind with hmem | ⟨hfull, -⟩
    · exact hmem
    · exact absurd hfull (Nat.ne_of_lt hlt)

/-- Nine in the morning on every 29th of February. -/
def leapMornings : Cron :=
  ⟨[0], [0], [9], [29], [2], Cron.Part.weekday.values, Cron.Part.year.values⟩

/-- From half a second behind noon on 2023-03-01. -/
theorem upcoming_enumerates_leapMornings :
    parse " 0 9 29 2 *\n" = .ok (.cron "0 0 9 29 2 *" leapMornings) ∧
      0 ≤ (⟨1677672000, 500000000⟩ : Instant).date.year ∧
      leapMornings.Enumerates ⟨1677672000, 500000000⟩ 3
        ((Schedule.cron "0 0 9 29 2 *" leapMornings).upcoming 3 ⟨1677672000, 500000000⟩) := by
  have hparse : parse " 0 9 29 2 *\n" = .ok (.cron "0 0 9 29 2 *" leapMornings) := by rfl
  have hyear : 0 ≤ (⟨1677672000, 500000000⟩ : Instant).date.year := by decide
  exact ⟨hparse, hyear, (upcoming_enumerates hparse hyear).1 3⟩

end Schedule

end CredentialRelay
