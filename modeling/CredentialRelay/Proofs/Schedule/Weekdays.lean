import CredentialRelay.Proofs.Cron.Expression
import CredentialRelay.Proofs.Cron.StandardWeek
import CredentialRelay.Proofs.Text.Fields

/-!
# Weekdays of five fields

A descriptor of five fields numbers its weekdays from 0, which is Sunday, and 7 is Sunday again. It
is turned into an expression of six fields with another numbering. How the blanks around the fields
look does not matter for that.

* `FiveFields text items`: a descriptor whose first four fields are fields of an expression, and
  whose fifth is a list of items with commas between them.
* `FiveFields.Kept`: the descriptor is accepted unless a range that wraps has a step, and fires on
  exactly the weekdays that its items mean.

Results:
* `FiveFields.accepted_iff`, `FiveFields.firesAt_iff`: what becomes of a descriptor, from what becomes
  of its items.
* `weekdays_kept_iff`: descriptors keep their weekdays exactly if all items are faithful.
-/

namespace CredentialRelay

/-- The weekday of an instant, from Sunday, which is 0, to 6. -/
def Instant.standardWeekday (t : Instant) : Nat :=
  ((t.dayNumber + 4) % 7).toNat

namespace Schedule

open Cron (WeekdayItem IsField spelled Part five_le_seven seven_le_seven)

/-- A descriptor of five fields. -/
structure FiveFields (text : String) (items : List WeekdayItem) where
  minute : String
  hour : String
  day : String
  month : String
  minutes : List Nat
  hours : List Nat
  days : List Nat
  months : List Nat
  nonempty : items ≠ []
  fields : Text.fields text = [minute, hour, day, month, String.ofList (spelled items)]
  isMinute : IsField .minute minute.toList minutes
  isHour : IsField .hour hour.toList hours
  isDay : IsField .day day.toList days
  isMonth : IsField .month month.toList months

namespace FiveFields

variable {text : String} {items : List WeekdayItem}

/-- The times of a descriptor on any weekday. -/
def times (f : FiveFields text items) : Cron :=
  ⟨[0], f.minutes, f.hours, f.days, f.months, Part.weekday.values, Part.year.values⟩

/-- A descriptor is accepted unless a range that wraps has a step, and fires on exactly the weekdays
that its items mean. -/
def Kept (f : FiveFields text items) : Prop :=
  ((∃ s, parse text = .ok s) ↔ ∀ i ∈ items, ¬ i.WrapsStepped) ∧
    ∀ s, parse text = .ok s → ∀ t,
      s.FiresAt t ↔ f.times.Occurs t ∧ ∃ i ∈ items, i.Means t.standardWeekday

end FiveFields

/-! ## Reading a descriptor -/

/-- In lower case, what a field begins with is no at sign. -/
theorem toLower_ne_of_beginsField {c : Char} (h : Cron.beginsField c = true) :
    c.toLower ≠ '@' ∧ c ≠ 'İ' ∧ c ≠ 'Σ' := by
  have hall : ∀ n < 0x80, Cron.beginsField (Char.ofNat n) = true →
      (Char.ofNat n).toLower ≠ '@' ∧ Char.ofNat n ≠ 'İ' ∧ Char.ofNat n ≠ 'Σ' := by decide
  have hc := hall c.toNat (Cron.ascii_of_beginsField h)
  rw [Char.ofNat_toNat] at hc
  exact hc h

/-- A text that begins as a field does is no shortcut. -/
theorem lookup_shortcuts_of_beginsField {text : String} {c : Char} {cs : List Char}
    (h : text.toList = c :: cs) (hc : Cron.beginsField c = true) :
    shortcuts.lookup (Text.lowercase text) = none := by
  obtain ⟨hlower, hdotted, hsigma⟩ := toLower_ne_of_beginsField hc
  have hfirst : Text.lowercaseFrom [] (c :: cs) = c.toLower :: Text.lowercaseFrom [c] cs := by
    rw [Text.lowercaseFrom, if_neg hdotted, if_neg hsigma, Text.lowercaseChar,
      if_pos (Cron.ascii_of_beginsField hc)]
    rfl
  refine List.lookup_eq_none_iff.mpr fun shortcut hshortcut => ?_
  have hmark : ∀ shortcut ∈ shortcuts, shortcut.1.toList.head? = some '@' := by decide
  refine bne_iff_ne.mpr fun heq => hlower ?_
  have hhead := hmark shortcut hshortcut
  rw [← heq, Text.lowercase, String.toList_ofList, h, hfirst] at hhead
  exact Option.some.inj hhead

namespace FiveFields

variable {text : String} {items : List WeekdayItem}

/-- The expression of six fields, with the weekdays renumbered. -/
def source (f : FiveFields text items) (weekdays : List Char) : String :=
  "0 " ++ " ".intercalate [f.minute, f.hour, f.day, f.month, String.ofList weekdays]

/-- Behind its blanks, a descriptor begins as a field does. -/
theorem opens_trim (f : FiveFields text items) : Cron.Opens (Text.trim text).toList := by
  obtain ⟨c, cs, hminute, hc⟩ := f.isMinute.opens
  have hhead := Text.head?_trim f.fields
  rw [hminute, List.head?_cons] at hhead
  obtain ⟨more, htrim⟩ := List.head?_eq_some_iff.mp hhead
  exact ⟨c, more, htrim, hc⟩

/-- A descriptor of five fields is turned into an expression of six. -/
theorem expression_eq (f : FiveFields text items) :
    expression (Text.trim text) =
      match Cron.shiftWeekdays (spelled items) with
      | .ok weekdays => .ok (f.source weekdays)
      | .error fault => within (.badWeekdays (Text.trim text)) (fail (.weekdays fault)) := by
  obtain ⟨c, more, htrim, hc⟩ := f.opens_trim
  have hfields := (Text.fields_trim text).trans f.fields
  have hmark : (Text.trim text).toList.head? ≠ some '@' := by
    rw [htrim]
    exact fun heq => (Cron.ne_of_beginsField hc).2.2.2.2 (Option.some.inj heq)
  have hcount : (Text.fields (Text.trim text)).length = 5 := by rw [hfields]; rfl
  unfold expression
  rw [lookup_shortcuts_of_beginsField htrim hc]
  simp only
  rw [if_neg hmark, if_pos hcount, withSeconds, hfields]
  simp only [List.getLastD_cons, List.getLastD_nil, List.dropLast, String.toList_ofList]
  rfl

/-- A descriptor of five fields is read as the expression of six. -/
theorem parse_eq (f : FiveFields text items) :
    parse text =
      match expression (Text.trim text) with
      | .error failure => .error failure
      | .ok source =>
        match Cron.parse source with
        | .ok times => .ok (.cron source times)
        | .error fault => within (.badExpression (Text.trim text)) (fail (.expression fault)) := by
  obtain ⟨c, more, htrim, hc⟩ := f.opens_trim
  have hempty : (Text.trim text).isEmpty = false := by
    rw [String.isEmpty_eq_false_iff]
    intro heq
    rw [heq] at htrim
    cases htrim
  have hmark : everyMark.isPrefixOf (Text.trim text).toList = false := by
    rw [htrim]
    show ('@' == c && _) = false
    rw [beq_eq_false_iff_ne.mpr (Ne.symm (Cron.ne_of_beginsField hc).2.2.2.2), Bool.false_and]
  cases hread : expression (Text.trim text) with
  | error failure => simp [parse, hempty, hmark, hread]
  | ok source => cases htimes : Cron.parse source <;> simp [parse, hempty, hmark, hread, htimes]

/-- The expression of six fields has the times of the descriptor. -/
theorem parse_source (f : FiveFields text items) {renumbered : List WeekdayItem}
    (hne : renumbered ≠ []) :
    Cron.parse (f.source (spelled renumbered)) =
      (Cron.resolve .weekday (renumbered.map (·.item))).map fun weekdays =>
        { f.times with weekdays := weekdays } := by
  have hzero : IsField .second ['0'] [0] := .of_any rfl (by rfl)
  have hsource : (f.source (spelled renumbered)).toList =
      [' '].intercalate [['0'], f.minute.toList, f.hour.toList, f.day.toList, f.month.toList,
        spelled renumbered] := by
    simp [source, List.intercalate]
  rw [Cron.parse, hsource]
  exact Cron.ofChars_of_isField hzero f.isMinute f.isHour f.isDay f.isMonth
    (Cron.opens_spelled hne) (Cron.field_spelled hne)

/-- **How a descriptor is read**, from how its items are renumbered. -/
theorem parse_ok_iff (f : FiveFields text items) {s : Schedule} :
    parse text = .ok s ↔ ∃ lists, items.mapM WeekdayItem.renumbered = .ok lists ∧
      ∃ weekdays, Cron.resolve .weekday (lists.flatten.map (·.item)) = .ok weekdays ∧
        s = .cron (f.source (spelled lists.flatten)) { f.times with weekdays := weekdays } := by
  rw [f.parse_eq, f.expression_eq, Cron.shiftWeekdays_spelled f.nonempty]
  cases hlists : items.mapM WeekdayItem.renumbered with
  | error fault =>
    constructor
    · exact fun h => by cases h
    · rintro ⟨lists, h, -⟩
      cases h
  | ok lists =>
    have hne : lists.flatten ≠ [] := by
      obtain ⟨first, more, rfl⟩ := List.exists_cons_of_ne_nil f.nonempty
      obtain ⟨js, others, hfirst, -, rfl⟩ := mapM_cons_ok_iff.mp hlists
      rw [List.flatten_cons]
      exact List.append_ne_nil_of_left_ne_nil (WeekdayItem.renumbered_ne_nil hfirst) _
    simp only [Except.map, f.parse_source hne, Except.ok.injEq, exists_eq_left']
    cases Cron.resolve .weekday (lists.flatten.map (·.item)) with
    | error fault =>
      constructor
      · exact fun h => by cases h
      · rintro ⟨weekdays, h, -⟩
        cases h
    | ok weekdays =>
      simp only [Except.ok.injEq, exists_eq_left']
      exact eq_comm

/-! ## The weekdays of a descriptor -/

/-- The items that are read, from all the items renumbered. -/
theorem mem_flatten_iff {lists : List (List WeekdayItem)}
    (hlists : items.mapM WeekdayItem.renumbered = .ok lists) {j : WeekdayItem} :
    j ∈ lists.flatten ↔ ∃ i ∈ items, ∃ js, i.renumbered = .ok js ∧ j ∈ js := by
  rw [List.mem_flatten]
  constructor
  · rintro ⟨js, hjs, hj⟩
    obtain ⟨i, hi, hread⟩ := (mem_of_mapM_ok hlists).mp hjs
    exact ⟨i, hi, js, hread, hj⟩
  · rintro ⟨i, hi, js, hread, hj⟩
    exact ⟨js, (mem_of_mapM_ok hlists).mpr ⟨i, hi, hread⟩, hj⟩

theorem exists_resolve_iff {part : Part} {read : List Cron.Item} :
    (∃ values, Cron.resolve part read = .ok values) ↔
      ∀ item ∈ read, ∃ p, Cron.Item.progression part item = .ok p := by
  rw [← exists_mapM_ok_iff]
  unfold Cron.resolve
  cases read.mapM (Cron.Item.progression part) with
  | error fault => exact iff_of_false (fun h => nomatch h.choose_spec) fun h => nomatch h.choose_spec
  | ok progressions => exact iff_of_true ⟨_, rfl⟩ ⟨progressions, rfl⟩

theorem mem_of_resolve_ok {part : Part} {read : List Cron.Item} {values : List Nat}
    (h : Cron.resolve part read = .ok values) {n : Nat} :
    n ∈ values ↔ part.first ≤ n ∧ n ≤ part.last ∧
      ∃ item ∈ read, ∃ p, Cron.Item.progression part item = .ok p ∧ p.contains n = true := by
  unfold Cron.resolve at h
  cases hall : read.mapM (Cron.Item.progression part) with
  | error fault =>
    rw [hall] at h
    cases h
  | ok progressions =>
    rw [hall] at h
    cases h
    rw [Cron.mem_fieldValues_iff]
    simp only [mem_of_mapM_ok hall]
    constructor
    · rintro ⟨hfirst, hlast, p, ⟨item, hitem, hp⟩, hn⟩
      exact ⟨hfirst, hlast, item, hitem, p, hp, hn⟩
    · rintro ⟨hfirst, hlast, item, hitem, p, hp, hn⟩
      exact ⟨hfirst, hlast, p, ⟨item, hitem, hp⟩, hn⟩

/-- **A descriptor is accepted exactly if all its items are.** -/
theorem accepted_iff (f : FiveFields text items) :
    (∃ s, parse text = .ok s) ↔ ∀ i ∈ items, i.Accepted := by
  constructor
  · rintro ⟨s, hs⟩ i hi
    obtain ⟨lists, hlists, weekdays, hresolve, -⟩ := f.parse_ok_iff.mp hs
    obtain ⟨js, hjs⟩ := exists_mapM_ok_iff.mp ⟨lists, hlists⟩ i hi
    refine ⟨js, hjs, fun j hj => exists_resolve_iff.mp ⟨weekdays, hresolve⟩ j.item ?_⟩
    exact List.mem_map_of_mem ((mem_flatten_iff hlists).mpr ⟨i, hi, js, hjs, hj⟩)
  · intro hall
    obtain ⟨lists, hlists⟩ := exists_mapM_ok_iff.mpr fun i hi =>
      (hall i hi).imp fun _ hjs => hjs.1
    have hread : ∀ item ∈ lists.flatten.map (·.item),
        ∃ p, Cron.Item.progression .weekday item = .ok p := by
      intro item hitem
      obtain ⟨j, hj, rfl⟩ := List.mem_map.mp hitem
      obtain ⟨i, hi, js, hjs, hj⟩ := (mem_flatten_iff hlists).mp hj
      exact (WeekdayItem.accepted_iff hjs).mp (hall i hi) j hj
    obtain ⟨weekdays, hresolve⟩ := exists_resolve_iff.mpr hread
    exact ⟨_, f.parse_ok_iff.mpr ⟨lists, hlists, weekdays, hresolve, rfl⟩⟩

/-- **When a descriptor fires**: at its times, on the weekdays of its renumbered items. -/
theorem firesAt_iff (f : FiveFields text items) {s : Schedule} (hs : parse text = .ok s)
    {t : Instant} :
    s.FiresAt t ↔ f.times.Occurs t ∧ ∃ i ∈ items, i.FiresOn t.standardWeekday := by
  obtain ⟨lists, hlists, weekdays, hresolve, rfl⟩ := f.parse_ok_iff.mp hs
  have hregular : Cron.Regular { f.times with weekdays := weekdays } :=
    ⟨⟨List.pairwise_singleton _ _, by simp [times, Part.first, Part.last]⟩, f.isMinute.holds,
      f.isHour.holds, Part.year.values_holds⟩
  have hbound : t.standardWeekday < 7 := by
    unfold Instant.standardWeekday
    omega
  have hday : t.standardWeekday + 1 ∈ weekdays ↔ ∃ i ∈ items, i.FiresOn t.standardWeekday := by
    rw [mem_of_resolve_ok hresolve]
    constructor
    · rintro ⟨-, -, item, hitem, p, hp, hcontains⟩
      obtain ⟨j, hj, rfl⟩ := List.mem_map.mp hitem
      obtain ⟨i, hi, js, hjs, hj⟩ := (mem_flatten_iff hlists).mp hj
      exact ⟨i, hi, js, hjs, j, hj, p, hp, hcontains⟩
    · rintro ⟨i, hi, js, hjs, j, hj, p, hp, hcontains⟩
      have hmem := (mem_flatten_iff hlists).mpr ⟨i, hi, js, hjs, hj⟩
      exact ⟨Nat.le_add_left 1 _, hbound, j.item, List.mem_map_of_mem hmem, p, hp, hcontains⟩
  rw [firesAt_cron_iff hregular, ← hday]
  have hweek : Date.weekdayOfNumber t.dayNumber = t.standardWeekday + 1 := rfl
  have hany : Part.weekday.values.contains (t.standardWeekday + 1) = true :=
    List.contains_iff_mem.mpr (Part.mem_values_iff.mpr ⟨Nat.le_add_left 1 _, hbound⟩)
  simp only [Cron.Occurs, Cron.matchesDay, Cron.matchesTime, times, hweek, hany, Bool.and_eq_true,
    List.contains_iff_mem]
  constructor
  · rintro ⟨hnanos, ⟨⟨⟨⟨hw, hm⟩, hd⟩, hy⟩, hy'⟩, htime⟩
    exact ⟨⟨hnanos, ⟨⟨⟨⟨trivial, hm⟩, hd⟩, hy⟩, hy'⟩, htime⟩, hw⟩
  · rintro ⟨⟨hnanos, ⟨⟨⟨⟨-, hm⟩, hd⟩, hy⟩, hy'⟩, htime⟩, hw⟩
    exact ⟨hnanos, ⟨⟨⟨⟨hw, hm⟩, hd⟩, hy⟩, hy'⟩, htime⟩

/-- A descriptor keeps its weekdays if all its items do. -/
theorem kept_of_items (f : FiveFields text items) (h : ∀ i ∈ items, i.Kept) : f.Kept := by
  refine ⟨?_, fun s hs t => ?_⟩
  · rw [f.accepted_iff]
    exact forall₂_congr fun i hi => (h i hi).1
  · have haccepted := f.accepted_iff.mp ⟨s, hs⟩
    have hbound : t.standardWeekday < 7 := by
      unfold Instant.standardWeekday
      omega
    rw [f.firesAt_iff hs]
    refine and_congr_right fun _ => exists_congr fun i => and_congr_right fun hi => ?_
    exact (h i hi).2 (haccepted i hi) _ hbound

/-! ## Descriptors for all days -/

/-- The times of every minute. -/
def everyMinute : Cron :=
  ⟨[0], Part.minute.values, Part.hour.values, Part.day.values, Part.month.values,
    Part.weekday.values, Part.year.values⟩

/-- Some minute of January 1970, on each weekday. -/
theorem everyMinute_occurs {weekday : Nat} (h : weekday < 7) :
    ∃ t : Instant, everyMinute.Occurs t ∧ t.standardWeekday = weekday := by
  have hall : ∀ weekday : Nat, weekday < 7 →
      everyMinute.Occurs ⟨((weekday + 3) * 86400 : Nat), 0⟩ ∧
        (⟨((weekday + 3) * 86400 : Nat), 0⟩ : Instant).standardWeekday = weekday := by decide
  exact ⟨_, hall weekday h⟩

/-- A descriptor for every minute of some weekdays. -/
def ofWeekdays (items : List WeekdayItem) (hne : items ≠ []) :
    FiveFields (" ".intercalate ["*", "*", "*", "*", String.ofList (spelled items)]) items where
  minute := "*"
  hour := "*"
  day := "*"
  month := "*"
  minutes := Part.minute.values
  hours := Part.hour.values
  days := Part.day.values
  months := Part.month.values
  nonempty := hne
  fields := Text.fields_intercalate (by
    have hstar : "*".toList ≠ [] ∧ ∀ c ∈ "*".toList, Text.isBlank c = false :=
      ⟨List.cons_ne_nil _ _, List.forall_mem_singleton.mpr rfl⟩
    simp only [List.forall_mem_cons, String.toList_ofList]
    refine ⟨hstar, hstar, hstar, hstar, ⟨?_, fun c => Cron.isBlank_of_mem_spelled⟩, nofun⟩
    obtain ⟨c, cs, heq, -⟩ := Cron.opens_spelled hne
    exact heq ▸ List.cons_ne_nil c cs)
  isMinute := .of_any rfl (by rfl)
  isHour := .of_any rfl (by rfl)
  isDay := .of_any rfl (by rfl)
  isMonth := .of_any rfl (by rfl)

end FiveFields

/-- **Descriptors keep their weekdays exactly if all items are faithful.** -/
theorem weekdays_kept_iff {items : List WeekdayItem} (hstandard : ∀ i ∈ items, i.Standard) :
    (∀ picked ⊆ items, ∀ (text : String) (f : FiveFields text picked), f.Kept) ↔
      ∀ i ∈ items, i.Faithful := by
  constructor
  · intro h i hi
    let f := FiveFields.ofWeekdays [i] (List.cons_ne_nil i [])
    have hkept : f.Kept := h [i] (List.cons_subset.mpr ⟨hi, List.nil_subset _⟩) _ f
    have haccepted := f.accepted_iff
    rw [List.forall_mem_singleton] at haccepted
    rw [← WeekdayItem.kept_iff (hstandard i hi)]
    refine ⟨?_, fun hi weekday hweekday => ?_⟩
    · rw [← haccepted, hkept.1, List.forall_mem_singleton]
    · -- The descriptor fires every minute, so some instant tells whether it does on this weekday.
      obtain ⟨s, hs⟩ := haccepted.mpr hi
      obtain ⟨t, hoccurs, rfl⟩ := FiveFields.everyMinute_occurs hweekday
      have htimes : f.times.Occurs t := hoccurs
      have hmeans := (f.firesAt_iff hs).symm.trans (hkept.2 s hs t)
      simpa [htimes] using hmeans
  · intro h picked hpicked text f
    refine f.kept_of_items fun i hi => ?_
    exact (WeekdayItem.kept_iff (hstandard i (hpicked hi))).mpr (h i (hpicked hi))

/-- From Friday to Sunday. -/
def weekend : WeekdayItem :=
  .days (.single 5 five_le_seven) (.single 7 seven_le_seven) none

/-- Nine in the morning on the weekend, with different blanks around the fields. -/
def weekendMornings : FiveFields " 0\t9  * * 5-7\n" [weekend] where
  minute := "0"
  hour := "9"
  day := "*"
  month := "*"
  minutes := [0]
  hours := [9]
  days := Part.day.values
  months := Part.month.values
  nonempty := List.cons_ne_nil _ _
  fields := by decide
  isMinute := .of_any rfl (by rfl)
  isHour := .of_any rfl (by rfl)
  isDay := .of_any rfl (by rfl)
  isMonth := .of_any rfl (by rfl)

theorem weekdays_kept_iff_weekend :
    (∀ i ∈ [weekend], i.Standard) ∧ weekendMornings.Kept := by
  have hstandard : ∀ i ∈ [weekend], i.Standard :=
    List.forall_mem_singleton.mpr (show 5 ≤ 7 by decide)
  have hfaithful : ∀ i ∈ [weekend], i.Faithful :=
    List.forall_mem_singleton.mpr fun _ => iff_of_true rfl (show 5 ≠ 7 by decide)
  exact ⟨hstandard,
    (weekdays_kept_iff hstandard).mpr hfaithful [weekend] (List.Subset.refl _) _ weekendMornings⟩

/-- From Sunday to the same Sunday. -/
def sundays : WeekdayItem :=
  .days (.single 7 seven_le_seven) (.single 7 seven_le_seven) none

/-- **A range from 7 to 7 fires on every day**: on Monday 2026-10-19 too, though it is one of the
standard numbering and means Sunday only. -/
theorem sundays_fire_on_monday :
    sundays.Standard ∧ (∀ weekday, sundays.Means weekday ↔ weekday = 0) ∧
      String.ofList (spelled [sundays]) = "7-7" ∧
      ∃ s, parse "0 9 * * 7-7" = .ok s ∧ s.FiresAt ⟨1792400400, 0⟩ ∧
        (⟨1792400400, 0⟩ : Instant).standardWeekday = 1 := by
  refine ⟨Nat.le_refl 7, fun weekday => ⟨?_, ?_⟩, rfl, _, rfl, ⟨⟨1792400399, 0⟩, by decide⟩, rfl⟩
  · rintro ⟨n, hn, rfl⟩
    obtain ⟨hlow, hhigh, -⟩ := Cron.Progression.contains_iff.mp hn
    rw [Nat.le_antisymm hhigh hlow]
    rfl
  · rintro rfl
    exact ⟨7, rfl, rfl⟩

end Schedule

end CredentialRelay
