import CredentialRelay.Cron.Weekday
import CredentialRelay.Proofs.Attempt
import CredentialRelay.Proofs.Cron.Spelling

/-!
# Renumbering weekdays

An item of the standard numbering is renumbered into one or two items of the numbering from 1 to 7,
or refused. A number moves up by one and 7 becomes 1; a range that ends in a single digit 7 is cut
before the Sunday at its end, unless it begins with a single digit 0.

Results:
* `WeekdayItem.shiftItem_text`: an item is renumbered in its spelling.
* `shiftWeekdays_spelled`: a list is renumbered item by item.
-/

namespace CredentialRelay.Cron

/-- A number written with a single digit. -/
def Numeral.single (n : Nat) (h : n ≤ 7) : Numeral where
  digits := [Nat.digitChar n]
  nonempty := List.cons_ne_nil _ _
  isDigit := by
    have hall : ∀ n ≤ 7, (Nat.digitChar n).isDigit = true := by decide
    simpa using hall n h
  le_seven := by
    have hall : ∀ n ≤ 7, Text.digitsValue 0 [Nat.digitChar n] ≤ 7 := by decide
    exact hall n h

@[simp] theorem Numeral.value_single (n : Nat) (h : n ≤ 7) : (single n h).value = n := by
  have hall : ∀ n ≤ 7, Text.digitsValue 0 [Nat.digitChar n] = n := by decide
  exact hall n h

/-- The number of a day moved up; 7 becomes 1, as 0 does. -/
def Numeral.next (n : Numeral) : Numeral :=
  single (n.value % 7 + 1) (by omega)

@[simp] theorem Numeral.value_next (n : Numeral) : n.next.value = n.value % 7 + 1 :=
  value_single _ _

theorem one_le_seven : 1 ≤ 7 := by decide

theorem five_le_seven : 5 ≤ 7 := by decide

theorem seven_le_seven : 7 ≤ 7 := Nat.le_refl 7

namespace WeekdayItem

/-- An item renumbered. -/
def renumbered (i : WeekdayItem) : Except WeekdayFault (List WeekdayItem) :=
  match i with
  | .every .. => .ok [i]
  | .day n step? => .ok [.day n.next step?]
  | .days first last step? =>
    if last.digits = ['7'] ∧ first.digits ≠ ['0'] then
      match step? with
      | none =>
        .ok [.days first.next (.single 7 seven_le_seven) none, .day (.single 1 one_le_seven) none]
      | some _ => .error (.steppedWrap (String.ofList i.text))
    else .ok [.days first.next (if last.digits = ['7'] then last else last.next) step?]
  | .name _ => .ok [i]
  | .names .. => .ok [i]

theorem renumbered_ne_nil {i : WeekdayItem} {js : List WeekdayItem} (h : i.renumbered = .ok js) :
    js ≠ [] := by
  unfold renumbered at h
  split at h
  · cases h
    exact List.cons_ne_nil _ _
  · cases h
    exact List.cons_ne_nil _ _
  · split at h
    · split at h
      · cases h
        exact List.cons_ne_nil _ _
      · cases h
    · cases h
      exact List.cons_ne_nil _ _
  · cases h
    exact List.cons_ne_nil _ _
  · cases h
    exact List.cons_ne_nil _ _

end WeekdayItem

/-! ## Renumbering the spelling -/

theorem Numeral.not_mem (n : Numeral) {c : Char} (h : c.isDigit = false) : c ∉ n.digits :=
  fun hc => by simp [n.isDigit c hc] at h

theorem DayName.not_mem (day : DayName) {c : Char} (h : c.isAlpha = false) : c ∉ day.letters :=
  fun hc => by simp [day.isAlpha.2 c hc] at h

/-- The number of a day is moved up. -/
theorem shiftDay_digits (n : Numeral) : shiftDay n.digits = .ok n.next.digits := by
  have hall : n.digits.all Char.isDigit = true := List.all_eq_true.mpr n.isDigit
  have hdigits : Text.readDigits 256 0 n.digits = .ok n.value :=
    (Text.readDigits_eq_ok_iff (by decide)).mpr
      ⟨hall, rfl, Nat.lt_of_le_of_lt n.le_seven (by decide)⟩
  have hread : Text.readNatural 256 n.digits = .ok n.value := by
    obtain ⟨c, digits, hc⟩ := List.exists_cons_of_ne_nil n.nonempty
    have hsign : c ≠ '+' := by
      rintro rfl
      exact n.not_mem (c := '+') rfl (hc ▸ List.mem_cons_self)
    rw [hc] at hdigits ⊢
    unfold Text.readNatural
    split
    · next heq => cases heq
    · next heq => exact absurd (List.cons.inj heq).1 hsign
    · next heq => exact absurd (List.cons.inj heq).1 hsign
    · exact hdigits
  have hnext : ∀ v ≤ 7, (if v = 0 ∨ v = 7 then .ok ['1']
      else if v < 7 then .ok (Nat.toDigits 10 (v + 1))
      else .error (.outOfRange (String.ofList n.digits))) =
      (.ok [Nat.digitChar (v % 7 + 1)] : Except WeekdayFault (List Char)) := by
    intro v hv
    have hcases : v = 0 ∨ v = 1 ∨ v = 2 ∨ v = 3 ∨ v = 4 ∨ v = 5 ∨ v = 6 ∨ v = 7 := by omega
    rcases hcases with rfl | rfl | rfl | rfl | rfl | rfl | rfl | rfl <;> rfl
  unfold shiftDay
  rw [if_neg (by simp [n.nonempty, hall]), hread]
  exact hnext n.value n.value_le

/-- A name stays as it is. -/
theorem shiftDay_letters (day : DayName) : shiftDay day.letters = .ok day.letters := by
  obtain ⟨hne, halpha⟩ := day.isAlpha
  obtain ⟨c, letters, hc⟩ := List.exists_cons_of_ne_nil hne
  have hdigit : c.isDigit = false := Text.isDigit_of_isAlpha (halpha c (hc ▸ List.mem_cons_self))
  unfold shiftDay
  rw [hc]
  exact if_pos (by simp [hdigit])

theorem splitFirst_stepText {base : List Char} (h : '/' ∉ base) (step? : Option Stride) :
    Text.splitFirst '/' (base ++ stepText step?) = (base, step?.map fun step => step.digits) := by
  cases step? with
  | none => rw [stepText, List.append_nil, Text.splitFirst_of_not_mem h]; rfl
  | some step => exact Text.splitFirst_append h step.digits

theorem spelled_singleton (i : WeekdayItem) : spelled [i] = i.text := by
  rw [spelled_cons, List.flatMap_nil, List.append_nil]

/-- Behind a day that is no mark and no range, a step stays as it is. -/
theorem shiftItem_day {base : List Char} (hmark : ¬ (base = ['*'] ∨ base = ['?']))
    (hslash : '/' ∉ base) (hhyphen : '-' ∉ base) (step? : Option Stride) :
    shiftItem (base ++ stepText step?) = (shiftDay base).map (· ++ stepText step?) := by
  unfold shiftItem
  simp only [splitFirst_stepText hslash, if_neg hmark, Text.splitFirst_of_not_mem hhyphen]
  cases step? <;> rfl

/-- A range is renumbered at both ends, with care for a single 7. -/
theorem shiftItem_days {start stop : List Char} (hstart : '/' ∉ start) (hstop : '/' ∉ stop)
    (hhyphen : '-' ∉ start) (step? : Option Stride) :
    shiftItem (start ++ '-' :: (stop ++ stepText step?)) =
      if stop = ['7'] ∧ start ≠ ['0'] then
        match step? with
        | some _ => .error (.steppedWrap (String.ofList (start ++ '-' :: (stop ++ stepText step?))))
        | none => (shiftDay start).map fun start => start ++ ['-', '7', ',', '1']
      else do
        let stop ← if stop = ['7'] then .ok ['7'] else shiftDay stop
        let start ← shiftDay start
        return start ++ '-' :: stop ++ stepText step? := by
  have hbase : start ++ '-' :: (stop ++ stepText step?) =
      (start ++ '-' :: stop) ++ stepText step? := by simp
  have hslash : '/' ∉ start ++ '-' :: stop := by simp [hstart, hstop]
  have hmark : ¬ (start ++ '-' :: stop = ['*'] ∨ start ++ '-' :: stop = ['?']) := by
    have hmem : '-' ∈ start ++ '-' :: stop := List.mem_append_right _ List.mem_cons_self
    rintro (h | h) <;> (rw [h] at hmem; exact absurd hmem (by decide))
  rw [hbase]
  unfold shiftItem
  simp only [splitFirst_stepText hslash, if_neg hmark, Text.splitFirst_append hhyphen]
  cases step? <;> rfl

namespace WeekdayItem

/-- **An item is renumbered in its spelling.** -/
theorem shiftItem_text (i : WeekdayItem) : shiftItem i.text = i.renumbered.map spelled := by
  cases i with
  | every mark h step? =>
    have hslash : '/' ∉ [mark] := by rcases h with rfl | rfl <;> decide
    have hsplit := splitFirst_stepText hslash step?
    rw [List.singleton_append] at hsplit
    unfold shiftItem
    simp only [text, hsplit]
    rw [if_pos (by rcases h with rfl | rfl <;> simp)]
    exact congrArg Except.ok (spelled_singleton (.every mark h step?)).symm
  | day n step? =>
    have hmark : ¬ (n.digits = ['*'] ∨ n.digits = ['?']) := by
      rintro (h | h) <;> exact n.not_mem rfl (h ▸ List.mem_cons_self)
    rw [text, shiftItem_day hmark (n.not_mem rfl) (n.not_mem rfl), shiftDay_digits]
    exact congrArg Except.ok (spelled_singleton (.day n.next step?)).symm
  | days first last step? =>
    rw [text, shiftItem_days (first.not_mem rfl) (last.not_mem rfl) (first.not_mem rfl)]
    simp only [shiftDay_digits, renumbered]
    split
    · cases step? with
      | some step => rfl
      | none =>
        refine congrArg Except.ok ?_
        simp [spelled_cons, text, stepText, Numeral.single, Nat.digitChar]
    · split
      · next hseven =>
        refine congrArg Except.ok ?_
        simp [spelled_singleton, text, hseven]
      · refine congrArg Except.ok ?_
        simp [spelled_singleton, text]
  | name weekday =>
    have hmark : ¬ (weekday.letters = ['*'] ∨ weekday.letters = ['?']) := by
      rintro (h | h) <;> exact weekday.not_mem rfl (h ▸ List.mem_cons_self)
    have hshift := shiftItem_day hmark (weekday.not_mem rfl) (weekday.not_mem rfl) none
    rw [stepText, List.append_nil, shiftDay_letters] at hshift
    rw [text, hshift]
    refine congrArg Except.ok ?_
    simp [spelled_singleton, text]
  | names first last step? =>
    have hseven : last.letters ≠ ['7'] := fun h =>
      last.not_mem (c := '7') rfl (h ▸ List.mem_cons_self)
    rw [text, shiftItem_days (first.not_mem rfl) (last.not_mem rfl) (first.not_mem rfl),
      if_neg fun h => hseven h.1, if_neg hseven, shiftDay_letters, shiftDay_letters]
    refine congrArg Except.ok ?_
    simp [spelled_singleton, text]

/-- No item has a comma in it. -/
theorem comma_not_mem (i : WeekdayItem) : ',' ∉ i.text := by
  have hstep : ∀ step? : Option Stride, ',' ∉ stepText step? := by
    intro step?
    cases step? with
    | none => exact List.not_mem_nil
    | some step => simp [stepText, step.not_mem (c := ',') rfl]
  cases i with
  | every mark h step? => rcases h with rfl | rfl <;> simp [text, hstep]
  | day n step? => simp [text, hstep, n.not_mem (c := ',') rfl]
  | days first last step? =>
    simp [text, hstep, first.not_mem (c := ',') rfl, last.not_mem (c := ',') rfl]
  | name weekday => exact weekday.not_mem rfl
  | names first last step? =>
    simp [text, hstep, first.not_mem (c := ',') rfl, last.not_mem (c := ',') rfl]

end WeekdayItem

/-- Lists of items that are joined, with commas between them, are one list. -/
theorem intercalate_spelled : ∀ {lists : List (List WeekdayItem)}, (∀ items ∈ lists, items ≠ []) →
    [','].intercalate (lists.map spelled) = spelled lists.flatten
  | [], _ => rfl
  | [items], _ => by simp [List.intercalate]
  | items :: next :: lists, h => by
    have ih := intercalate_spelled fun items hitems => h items (List.mem_cons_of_mem _ hitems)
    obtain ⟨first, more, hfirst⟩ := List.exists_cons_of_ne_nil (h items List.mem_cons_self)
    obtain ⟨first', more', hnext⟩ := List.exists_cons_of_ne_nil
      (h next (List.mem_cons_of_mem _ List.mem_cons_self))
    have hjoin : [','].intercalate ((items :: next :: lists).map spelled) =
        spelled items ++ ',' :: [','].intercalate ((next :: lists).map spelled) := by
      simp [List.intercalate]
    rw [hjoin, ih, hfirst, hnext]
    simp [spelled_cons]

/-- **A list is renumbered item by item.** -/
theorem shiftWeekdays_spelled {items : List WeekdayItem} (hne : items ≠ []) :
    shiftWeekdays (spelled items) =
      (items.mapM WeekdayItem.renumbered).map fun lists => spelled lists.flatten := by
  have hsplit : Text.splitAll ',' (spelled items) = items.map WeekdayItem.text := by
    refine Text.splitAll_intercalate (by simpa using hne) fun segment hsegment => ?_
    obtain ⟨i, -, rfl⟩ := List.mem_map.mp hsegment
    exact i.comma_not_mem
  have hmap : ∀ items : List WeekdayItem, (items.map WeekdayItem.text).mapM shiftItem =
      (items.mapM WeekdayItem.renumbered).map (List.map spelled) := by
    intro items
    induction items with
    | nil => rfl
    | cons i items ih =>
      rw [List.map_cons, List.mapM_cons, List.mapM_cons, ih, i.shiftItem_text]
      cases i.renumbered with
      | error fault => rfl
      | ok list => cases items.mapM WeekdayItem.renumbered <;> rfl
  unfold shiftWeekdays
  rw [hsplit, hmap]
  cases hlists : items.mapM WeekdayItem.renumbered with
  | error fault => rfl
  | ok lists =>
    refine congrArg Except.ok (intercalate_spelled fun list hlist => ?_)
    obtain ⟨i, -, hi⟩ := (mem_of_mapM_ok hlists).mp hlist
    exact WeekdayItem.renumbered_ne_nil hi

end CredentialRelay.Cron
