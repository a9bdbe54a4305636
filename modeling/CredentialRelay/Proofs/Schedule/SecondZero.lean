import CredentialRelay.Proofs.Schedule.Intervals
import CredentialRelay.Proofs.Schedule.Upcoming

/-!
# The second of five fields

A descriptor of five fields has none for the second, so a field `0` is put in front of it. That is
done by text, and the grammar of expressions needs no blanks between fields and allows them around
numbers: if the first field begins with a comma, a hyphen or a slash, then it goes on with the list,
the range or the step that the 0 is taken to begin.

* `Cron.joins`: the marks with which a text goes on behind a number.
* `AtSecondZero`: every upcoming instant is at second 0.

Results:
* `Cron.seconds_of_parse`: the 0 is a field of its own if no such mark follows.
* `atSecondZero_iff`: an expression with other seconds fires at one of them, if it fires at all.
* `fires_at_second_zero_iff`: which descriptors of five fields fire at second 0 only.
-/

namespace CredentialRelay

/-! ## The field in front -/

namespace Cron

/-- Whether a text goes on with a mark within a field. -/
def joins (c : Char) : Bool :=
  c == ',' || c == '-' || c == '/'

variable {c : Char} {cs : List Char}

theorem mark_eq_none_of_joins {m : Char} (hm : joins m = true) (hc : joins c = false) :
    mark m (c :: cs) = none := by
  refine if_neg ?_
  rintro rfl
  rw [hm] at hc
  cases hc

theorem number_zero (hspace : isSpace c = false) :
    number ('0' :: ' ' :: c :: cs) = some (0, c :: cs) := by
  have hskip : skipSpaces (c :: cs) = c :: cs := List.dropWhile_cons_of_neg (by simp [hspace])
  have hrun : run Char.isDigit ('0' :: ' ' :: c :: cs) = some (['0'], skipSpaces (c :: cs)) := rfl
  rw [number, hrun, hskip]
  rfl

theorem item_zero (hspace : isSpace c = false) (hjoins : joins c = false) :
    item false ('0' :: ' ' :: c :: cs) = some (.plain (.point 0), c :: cs) := by
  have hpair : pair number ('0' :: ' ' :: c :: cs) = none :=
    pair_eq_none_of_mark (number_zero hspace) (mark_eq_none_of_joins rfl hjoins)
  have hstep : step (c :: cs) = none := by
    rw [step, mark_eq_none_of_joins rfl hjoins]
    rfl
  rw [item_eq, extent_of_ne (by decide) (by decide), hpair, number_zero hspace]
  simp only [Option.map_some, Option.map_none, Option.none_or, Option.some_or, hstep]
  rfl

/-- **The field in front is read alone** if no mark follows. -/
theorem partField_zero (hspace : isSpace c = false) (hjoins : joins c = false) :
    partField .second ('0' :: ' ' :: c :: cs) = .ok ([0], c :: cs) := by
  have hskip : skipSpaces (c :: cs) = c :: cs := List.dropWhile_cons_of_neg (by simp [hspace])
  have hmore : moreItems false (c :: cs).length (c :: cs) = ([], c :: cs) := by
    rw [List.length_cons, moreItems, mark_eq_none_of_joins rfl hjoins]
    rfl
  have hstart : skipSpaces ('0' :: ' ' :: c :: cs) = '0' :: ' ' :: c :: cs := rfl
  have hfield : field false ('0' :: ' ' :: c :: cs) = some ([.plain (.point 0)], c :: cs) := by
    rw [field, hstart, item_zero hspace hjoins]
    simp only [hmore, hskip]
  exact partField_eq_ok_iff.mpr ⟨[.plain (.point 0)], hfield, by rfl⟩

/-- **An expression with a field 0 in front fires at second 0 only**, if no mark follows. -/
theorem seconds_of_parse {text : String} {times : Cron} (h : Cron.parse text = .ok times)
    (htext : text.toList = '0' :: ' ' :: c :: cs) (hspace : isSpace c = false)
    (hjoins : joins c = false) : times.seconds = [0] := by
  obtain ⟨⟨seconds, rest⟩, hseconds, h⟩ := bind_ok h
  rw [htext, partField_zero hspace hjoins] at hseconds
  cases hseconds
  obtain ⟨⟨minutes, cs⟩, -, h⟩ := bind_ok h
  obtain ⟨⟨hours, cs⟩, -, h⟩ := bind_ok h
  obtain ⟨⟨days, cs⟩, -, h⟩ := bind_ok h
  obtain ⟨⟨months, cs⟩, -, h⟩ := bind_ok h
  obtain ⟨⟨weekdays, cs⟩, -, h⟩ := bind_ok h
  dsimp only at h
  split at h
  all_goals
    split at h
    · cases h
      rfl
    · cases h

end Cron

namespace Schedule

/-! ## Instants at second 0 -/

/-- Whether a clock shows second 0 at every upcoming instant. -/
def AtSecondZero (s : Schedule) : Prop :=
  ∀ count now, ∀ t ∈ s.upcoming count now, t.reading.second = 0

theorem firesAt_of_mem_upcoming {s : Schedule} {t : Instant} : ∀ {count : Nat} {now : Instant},
    t ∈ s.upcoming count now → s.FiresAt t
  | count + 1, now, h => by
    cases hnext : s.next? now with
    | none =>
      rw [upcoming_of_next?_eq_none hnext] at h
      cases h
    | some u =>
      rw [upcoming_of_next?_eq_some hnext] at h
      rcases List.mem_cons.mp h with rfl | h
      · exact ⟨now, hnext⟩
      · exact firesAt_of_mem_upcoming h

/-- What matches at one second of the field, matches at any other. -/
theorem exists_matches_at_second {c : Cron} (hc : c.Regular) {t : Instant} (h : c.Matches t)
    {second : Nat} (hsecond : second ∈ c.seconds) : ∃ u, c.Matches u ∧ u.reading.second = second := by
  obtain ⟨r, -, hr⟩ := h
  have hlast : second ≤ 59 := (hc.seconds.bounds second hsecond).2
  let moved : Reading := { r with second := second, second_lt := Nat.lt_succ_of_le hlast }
  refine ⟨moved.instant, ⟨moved, rfl, { hr with second := hsecond }⟩, ?_⟩
  rw [moved.reading_instant]

theorem eq_singleton_zero_of_ascending {values : List Nat} (h : values.Pairwise (· < ·))
    (hne : values ≠ []) (hzero : ∀ n ∈ values, n = 0) : values = [0] := by
  obtain ⟨first, more, rfl⟩ := List.exists_cons_of_ne_nil hne
  rw [hzero first List.mem_cons_self]
  refine congrArg (0 :: ·) (List.eq_nil_iff_forall_not_mem.mpr fun n hn => ?_)
  have hlt := (List.pairwise_cons.mp h).1 n hn
  rw [hzero n (List.mem_cons_of_mem first hn)] at hlt
  exact Nat.not_lt_zero first hlt

/-- **An expression with other seconds fires at one of them**, if it fires at all. -/
theorem atSecondZero_iff {c : Cron} (source : String) (hc : c.Regular) :
    (Schedule.cron source c).AtSecondZero ↔ c.seconds = [0] ∨ ∀ t, ¬ c.Matches t := by
  have hfires {t : Instant} : (Schedule.cron source c).FiresAt t ↔ c.Matches t :=
    (firesAt_cron_iff hc).trans Cron.occurs_iff_matches
  constructor
  · intro hzero
    by_cases hmatches : ∃ t, c.Matches t
    · obtain ⟨t, ht⟩ := hmatches
      have hne : c.seconds ≠ [] := by
        obtain ⟨r, -, hr⟩ := ht
        exact List.ne_nil_of_mem hr.second
      refine .inl ?_
      refine eq_singleton_zero_of_ascending hc.seconds.ascending hne fun second hsecond => ?_
      obtain ⟨u, hu, rfl⟩ := exists_matches_at_second hc ht hsecond
      obtain ⟨now, hnext⟩ := hfires.mpr hu
      exact hzero 1 now u (upcoming_of_next?_eq_some hnext 0 ▸ List.mem_cons_self)
    · exact .inr fun t ht => hmatches ⟨t, ht⟩
  · intro h count now t ht
    obtain ⟨r, rfl, hr⟩ := hfires.mp (firesAt_of_mem_upcoming ht)
    rw [r.reading_instant]
    rcases h with hseconds | hnone
    · exact List.mem_singleton.mp (hseconds ▸ hr.second)
    · exact absurd ⟨r, rfl, hr⟩ (hnone _)

/-! ## Five fields -/

/-- Texts that are joined begin as the first one does. -/
theorem exists_intercalate_cons (first : String) (more : List String) :
    ∃ rest, (" ".intercalate (first :: more)).toList = first.toList ++ rest := by
  cases more with
  | nil => exact ⟨[], by simp⟩
  | cons second more =>
    rw [String.toList_intercalate]
    exact ⟨' ' :: [' '].intercalate (second.toList :: more.map String.toList),
      by simp [List.intercalate]⟩

/-- The expression for five fields goes on with the first of them behind the 0. -/
theorem toList_withSeconds {descriptor first source : String} {more : List String}
    (hfields : Text.fields descriptor = first :: more) (hmore : more ≠ [])
    (h : withSeconds descriptor = .ok source) :
    ∃ rest, source.toList = '0' :: ' ' :: (first.toList ++ rest) := by
  unfold withSeconds at h
  dsimp only at h
  split at h
  · next weekdays _ =>
    cases h
    obtain ⟨rest, hrest⟩ := exists_intercalate_cons first (more.dropLast ++ [String.ofList weekdays])
    refine ⟨rest, ?_⟩
    rw [hfields, List.dropLast_cons_of_ne_nil hmore, List.cons_append, String.toList_append, hrest]
    rfl
  · cases h

/-- Every shortcut stands for an expression at second 0. -/
theorem seconds_of_shortcut {source : String} {times : Cron}
    (hsource : ∃ shortcut ∈ shortcuts, shortcut.2 = source)
    (htimes : Cron.parse source = .ok times) : times.seconds = [0] := by
  have hall : ∀ shortcut ∈ shortcuts, ∃ c cs, shortcut.2.toList = '0' :: ' ' :: c :: cs ∧
      Cron.isSpace c = false ∧ Cron.joins c = false := by
    simp only [shortcuts, List.forall_mem_cons]
    exact ⟨⟨_, _, rfl, rfl, rfl⟩, ⟨_, _, rfl, rfl, rfl⟩, ⟨_, _, rfl, rfl, rfl⟩, ⟨_, _, rfl, rfl, rfl⟩,
      ⟨_, _, rfl, rfl, rfl⟩, ⟨_, _, rfl, rfl, rfl⟩, ⟨_, _, rfl, rfl, rfl⟩, nofun⟩
  obtain ⟨shortcut, hmem, rfl⟩ := hsource
  obtain ⟨c, cs, htext, hspace, hjoins⟩ := hall shortcut hmem
  exact Cron.seconds_of_parse htimes htext hspace hjoins

/-- **Which descriptors of five fields fire at second 0 only**: those whose first field does not go
on behind the 0 in front of it, and of the others those that get no other second by that, or never
fire. -/
theorem fires_at_second_zero_iff {text first : String} {more : List String} {s : Schedule}
    (hfields : Text.fields text = first :: more) (hmore : more.length = 4)
    (h : parse text = .ok s) :
    ∃ source times, s = .cron source times ∧
      (s.AtSecondZero ↔ times.seconds = [0] ∨ ∀ t, ¬ times.Matches t) ∧
      ((∀ c ∈ first.toList.head?, Cron.joins c = false) → s.AtSecondZero) := by
  have hcount : (Text.fields (Text.trim text)).length = 5 := by
    rw [Text.fields_trim, hfields, List.length_cons, hmore]
  rcases parse_ok h with ⟨-, interval, -, rfl⟩ | ⟨source, times, hsource, htimes, rfl⟩
  · have htwo := length_fields_le_two h
    rw [hfields, List.length_cons, hmore] at htwo
    exact absurd htwo (by decide)
  have hiff := atSecondZero_iff source (Cron.regular_of_parse htimes)
  refine ⟨source, times, rfl, hiff, fun hjoins => hiff.mpr (.inl ?_)⟩
  rcases expression_ok hsource with hshortcut | ⟨-, hwith⟩ | ⟨hother, -⟩
  · exact seconds_of_shortcut hshortcut htimes
  · have hothers : more ≠ [] := List.ne_nil_of_length_pos (hmore ▸ by decide)
    obtain ⟨rest, htext⟩ := toList_withSeconds ((Text.fields_trim text).trans hfields) hothers hwith
    obtain ⟨hne, hblank⟩ := Text.mem_fields (hfields ▸ List.mem_cons_self)
    obtain ⟨c, cs, hfirst⟩ := List.exists_cons_of_ne_nil hne
    rw [hfirst] at htext hblank hjoins
    exact Cron.seconds_of_parse htimes htext
      (Cron.isSpace_of_not_isBlank (hblank c List.mem_cons_self)) (hjoins c rfl)
  · omega

theorem fires_at_second_zero_iff_leapMornings :
    Text.fields " 0 9 29 2 *\n" = ["0", "9", "29", "2", "*"] ∧
      parse " 0 9 29 2 *\n" = .ok (.cron "0 0 9 29 2 *" leapMornings) ∧
      (Schedule.cron "0 0 9 29 2 *" leapMornings).AtSecondZero := by
  have hfields : Text.fields " 0 9 29 2 *\n" = ["0", "9", "29", "2", "*"] := by decide
  have hparse : parse " 0 9 29 2 *\n" = .ok (.cron "0 0 9 29 2 *" leapMornings) := by rfl
  obtain ⟨_, _, -, -, hzero⟩ := fires_at_second_zero_iff hfields rfl hparse
  exact ⟨hfields, hparse, hzero fun c hc => by cases hc; rfl⟩

/-- **Behind the 0 in front, a comma goes on with a list**: these five fields fire half a minute
after 2024-05-01 10:00. -/
theorem comma_fires_at_second_thirty :
    (Text.fields ",30 ** * * *").length = 5 ∧ ∃ s, parse ",30 ** * * *" = .ok s ∧
      s.upcoming 1 ⟨1714557600, 0⟩ = [⟨1714557630, 0⟩] ∧
      (⟨1714557630, 0⟩ : Instant).reading.second = 30 :=
  ⟨by decide, _, rfl, by decide, rfl⟩

end Schedule

end CredentialRelay
