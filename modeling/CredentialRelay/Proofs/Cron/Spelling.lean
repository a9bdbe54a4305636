import CredentialRelay.Proofs.Cron.Adjacent
import CredentialRelay.Proofs.Text.Split
import CredentialRelay.Text.Blank

/-!
# How weekdays are spelled

An item of a weekday field is a mark for all days, a number, a range of numbers, a name, or a range
of names; all but a lone name may have a step. Numbers may have any zeros in front, and names may be
in any case. Which days an item means depends on the numbering, but how it is read does not.

* `WeekdayItem.text` is the spelling, `WeekdayItem.item` what is read from it.

Results:
* `WeekdayItem.item_text`: an item is read from its spelling, up to a comma or the end.
* `field_spelled`: a list of items is read from their spellings with commas between them.
-/

namespace CredentialRelay.Cron

/-- A number up to 7, with any zeros in front. -/
structure Numeral where
  digits : List Char
  nonempty : digits ≠ []
  isDigit : ∀ c ∈ digits, c.isDigit = true
  le_seven : Text.digitsValue 0 digits ≤ 7

/-- The number that is written. -/
def Numeral.value (n : Numeral) : Nat :=
  Text.digitsValue 0 n.digits

theorem Numeral.value_le (n : Numeral) : n.value ≤ 7 :=
  n.le_seven

theorem Numeral.value_eq {n : Numeral} {cs : List Char} (h : n.digits = cs) :
    n.value = Text.digitsValue 0 cs :=
  congrArg (Text.digitsValue 0) h

/-- A number of days from 1 to 7. -/
structure Stride extends Numeral where
  positive : 0 < toNumeral.value

/-- The name of a weekday, and its number from Sunday, which is 1, to 7. -/
structure DayName where
  letters : List Char
  number : Nat
  known : weekdayNames.lookup (String.ofList (letters.map Char.toLower)) = some number

/-- An item of a weekday field. -/
inductive WeekdayItem where
  | every (mark : Char) (h : mark = '*' ∨ mark = '?') (step? : Option Stride)
  | day (n : Numeral) (step? : Option Stride)
  | days (first last : Numeral) (step? : Option Stride)
  | name (weekday : DayName)
  | names (first last : DayName) (step? : Option Stride)

/-- A step as it is written behind an item. -/
def stepText : Option Stride → List Char
  | none => []
  | some step => '/' :: step.digits

/-- An extent with a step behind it, if there is one. -/
def Extent.withStep (extent : Extent) : Option Stride → Item
  | none => .plain extent
  | some step => .stepped extent step.value

/-- The spelling of an item. -/
def WeekdayItem.text : WeekdayItem → List Char
  | .every mark _ step? => mark :: stepText step?
  | .day n step? => n.digits ++ stepText step?
  | .days first last step? => first.digits ++ '-' :: (last.digits ++ stepText step?)
  | .name weekday => weekday.letters
  | .names first last step? => first.letters ++ '-' :: (last.letters ++ stepText step?)

/-- What is read from the spelling of an item. -/
def WeekdayItem.item : WeekdayItem → Item
  | .every _ _ step? => Extent.all.withStep step?
  | .day n step? => (Extent.point n.value).withStep step?
  | .days first last step? => (Extent.range first.value last.value).withStep step?
  | .name weekday => .named (String.ofList weekday.letters)
  | .names first last step? =>
    (Extent.namedRange (String.ofList first.letters) (String.ofList last.letters)).withStep step?

namespace DayName

theorem mem_weekdayNames (day : DayName) :
    (String.ofList (day.letters.map Char.toLower), day.number) ∈ weekdayNames := by
  obtain ⟨before, after, heq, -⟩ := List.lookup_eq_some_iff.mp day.known
  rw [heq]
  exact List.mem_append_right _ List.mem_cons_self

/-- Weekdays have the numbers from 1 to 7. -/
theorem bounds (day : DayName) : 1 ≤ day.number ∧ day.number ≤ 7 := by
  have hall : ∀ entry ∈ weekdayNames, 1 ≤ entry.2 ∧ entry.2 ≤ 7 := by decide
  exact hall _ day.mem_weekdayNames

/-- A name is not empty and has only letters. -/
theorem isAlpha (day : DayName) : day.letters ≠ [] ∧ ∀ c ∈ day.letters, c.isAlpha = true := by
  have hall : ∀ entry ∈ weekdayNames,
      entry.1.toList ≠ [] ∧ entry.1.toList.all Char.isAlpha = true := by decide
  obtain ⟨hne, halpha⟩ := hall _ day.mem_weekdayNames
  rw [String.toList_ofList] at hne halpha
  refine ⟨fun h => hne (by rw [h]; rfl), fun c hc => ?_⟩
  exact Text.isAlpha_of_toLower (List.all_eq_true.mp halpha _ (List.mem_map_of_mem hc))

/-- The number of a name is found. -/
theorem ofName_letters (day : DayName) :
    Part.weekday.ofName (String.ofList day.letters) = .ok day.number := by
  unfold Part.ofName
  simp only [String.toList_ofList, day.known]

end DayName

/-! ## Reading the spelling -/

variable {rest : List Char}

/-- A text that goes on with a mark, or ends. -/
def Stops (rest : List Char) : Prop :=
  ∀ c ∈ rest.head?, c = '-' ∨ c = '/' ∨ c = ','

/-- A text that goes on with another item, or ends. -/
def EndsItem (rest : List Char) : Prop :=
  ∀ c ∈ rest.head?, c = ','

theorem EndsItem.stops (h : EndsItem rest) : Stops rest :=
  fun c hc => .inr (.inr (h c hc))

theorem stops_cons {m : Char} (hm : m = '-' ∨ m = '/' ∨ m = ',') (rest : List Char) :
    Stops (m :: rest) := by
  intro c hc
  cases hc
  exact hm

theorem stops_stepText (step? : Option Stride) (h : EndsItem rest) :
    Stops (stepText step? ++ rest) := by
  cases step? with
  | none => exact h.stops
  | some step => exact stops_cons (.inr (.inl rfl)) _

theorem EndsItem.mark_eq_none (h : EndsItem rest) {m : Char} (hm : m ≠ ',') :
    mark m rest = none := by
  cases rest with
  | nil => rfl
  | cons c rest => exact if_neg fun heq => hm (heq.symm.trans (h c rfl))

/-- A run that ends at a mark is read whole. -/
theorem run_append {p : Char → Bool} (hbegins : ∀ c, p c = true → beginsField c = true)
    {taken : List Char} (hne : taken ≠ []) (htaken : ∀ c ∈ taken, p c = true) (hrest : Stops rest) :
    run p (taken ++ rest) = some (taken, rest) := by
  have hstop : ∀ c ∈ rest.head?, p c = false ∧ isSpace c = false := by
    intro c hc
    have hmark : beginsField c = false ∧ isSpace c = false := by
      rcases hrest c hc with rfl | rfl | rfl <;> decide
    exact ⟨Bool.eq_false_iff.mpr fun h => by simp [hbegins c h] at hmark, hmark.2⟩
  have hskip : skipSpaces (taken ++ rest) = taken ++ rest := by
    obtain ⟨c, taken, rfl⟩ := List.exists_cons_of_ne_nil hne
    have hc := (ne_of_beginsField (hbegins c (htaken c List.mem_cons_self))).1
    exact List.dropWhile_cons_of_neg (by simp [hc])
  have hend : rest.takeWhile p = [] ∧ rest.dropWhile p = rest ∧ skipSpaces rest = rest := by
    cases rest with
    | nil => exact ⟨rfl, rfl, rfl⟩
    | cons c rest =>
      obtain ⟨hc, hspace⟩ := hstop c rfl
      exact ⟨by simp [hc], by simp [hc], List.dropWhile_cons_of_neg (by simp [hspace])⟩
  unfold run
  simp only
  rw [hskip, List.takeWhile_append_of_pos htaken, List.dropWhile_append_of_pos htaken, hend.1,
    hend.2.1, hend.2.2, List.append_nil, if_neg (by simpa using hne)]

theorem number_append (n : Numeral) (h : Stops rest) :
    number (n.digits ++ rest) = some (n.value, rest) := by
  have hbegins : ∀ c : Char, c.isDigit = true → beginsField c = true :=
    fun c hc => by simp [beginsField, hc]
  unfold number
  rw [run_append hbegins n.nonempty n.isDigit h]
  exact if_pos (Nat.lt_of_le_of_lt n.le_seven (by decide))

theorem word_append (day : DayName) (h : Stops rest) :
    word (day.letters ++ rest) = some (String.ofList day.letters, rest) := by
  have hbegins : ∀ c : Char, c.isAlpha = true → beginsField c = true :=
    fun c hc => by simp [beginsField, hc]
  unfold word
  rw [run_append hbegins day.isAlpha.1 day.isAlpha.2 h]
  rfl

/-- A name is no number. -/
theorem number_letters (day : DayName) (rest : List Char) :
    number (day.letters ++ rest) = none := by
  obtain ⟨hne, halpha⟩ := day.isAlpha
  obtain ⟨c, letters, hletters⟩ := List.exists_cons_of_ne_nil hne
  have hc : c.isAlpha = true := halpha c (hletters ▸ List.mem_cons_self)
  have hspace : isSpace c = false :=
    (ne_of_beginsField (by simp [beginsField, hc])).1
  have hskip : skipSpaces (c :: (letters ++ rest)) = c :: (letters ++ rest) :=
    List.dropWhile_cons_of_neg (by simp [hspace])
  rw [hletters, List.cons_append]
  unfold number run
  simp [hskip, Text.isDigit_of_isAlpha hc]

theorem pair_append {α : Type} {part : Reader α} {first last : List Char} {a b : α}
    (hfirst : ∀ {rest}, Stops rest → part (first ++ rest) = some (a, rest))
    (hlast : ∀ {rest}, Stops rest → part (last ++ rest) = some (b, rest)) (h : Stops rest) :
    pair part (first ++ '-' :: (last ++ rest)) = some ((a, b), rest) := by
  rw [pair_eq, hfirst (stops_cons (.inl rfl) _), Option.bind_some]
  show ((part (last ++ rest)).map _) = _
  rw [hlast h]
  rfl

theorem step_stepText (step? : Option Stride) (h : EndsItem rest) :
    step (stepText step? ++ rest) = step?.map fun s => (s.value, rest) := by
  unfold step
  cases step? with
  | none =>
    show (mark '/' rest).bind number = none
    rw [h.mark_eq_none (by decide)]
    rfl
  | some s => exact number_append s.toNumeral h.stops

/-- An extent and the step behind it are an item. -/
theorem item_of_extent {cs : List Char} {e : Extent} {step? : Option Stride} (h : EndsItem rest)
    (hextent : extent true cs = some (e, stepText step? ++ rest)) :
    item true cs = some (e.withStep step?, rest) := by
  rw [item_eq, hextent]
  simp only [Option.map_some, Option.some_or, step_stepText step? h]
  cases step? <;> rfl

namespace WeekdayItem

/-- The spelling of an item begins as a field does. -/
theorem opens (i : WeekdayItem) : Opens i.text := by
  have hdigits (n : Numeral) (more : List Char) : Opens (n.digits ++ more) := by
    obtain ⟨c, digits, hc⟩ := List.exists_cons_of_ne_nil n.nonempty
    have hdigit := n.isDigit c (hc ▸ List.mem_cons_self)
    exact ⟨c, digits ++ more, by rw [hc]; rfl, by simp [beginsField, hdigit]⟩
  have hletters (day : DayName) (more : List Char) : Opens (day.letters ++ more) := by
    obtain ⟨c, letters, hc⟩ := List.exists_cons_of_ne_nil day.isAlpha.1
    have halpha := day.isAlpha.2 c (hc ▸ List.mem_cons_self)
    exact ⟨c, letters ++ more, by rw [hc]; rfl, by simp [beginsField, halpha]⟩
  cases i with
  | every mark h step? => exact ⟨mark, _, rfl, by rcases h with rfl | rfl <;> rfl⟩
  | day n step? => exact hdigits n _
  | days first last step? => exact hdigits first _
  | name weekday =>
    have hopens := hletters weekday []
    rwa [List.append_nil] at hopens
  | names first last step? => exact hletters first _

end WeekdayItem

theorem Numeral.extent_append (n : Numeral) (more : List Char) :
    extent true (n.digits ++ more) =
      ((pair number (n.digits ++ more)).map fun read => (.range read.1.1 read.1.2, read.2)).or
        (((number (n.digits ++ more)).map fun read => (.point read.1, read.2)).or
          ((pair word (n.digits ++ more)).map
            fun read => (.namedRange read.1.1 read.1.2, read.2))) := by
  obtain ⟨c, digits, hc⟩ := List.exists_cons_of_ne_nil n.nonempty
  have hdigit := n.isDigit c (hc ▸ List.mem_cons_self)
  rw [hc]
  refine extent_of_ne ?_ ?_ true _ <;> (rintro rfl; exact absurd hdigit (by decide))

/-- No number stands before a name, so an extent that begins with one is a range of names. -/
theorem DayName.extent_append (day : DayName) (more : List Char) :
    extent true (day.letters ++ more) =
      (pair word (day.letters ++ more)).map fun read => (.namedRange read.1.1 read.1.2, read.2) := by
  obtain ⟨c, letters, hc⟩ := List.exists_cons_of_ne_nil day.isAlpha.1
  have halpha := day.isAlpha.2 c (hc ▸ List.mem_cons_self)
  have hnumber := number_letters day more
  rw [hc, List.cons_append] at hnumber ⊢
  rw [extent_of_ne, pair_eq, hnumber]
  · rfl
  · rintro rfl
    exact absurd halpha (by decide)
  · rintro rfl
    exact absurd halpha (by decide)

/-- **An item is read from its spelling**, up to a comma or the end. -/
theorem WeekdayItem.item_text (i : WeekdayItem) (h : EndsItem rest) :
    Cron.item true (i.text ++ rest) = some (i.item, rest) := by
  cases i with
  | every mark hmark step? =>
    refine item_of_extent h ?_
    rcases hmark with rfl | rfl <;> rfl
  | day n step? =>
    have hn := number_append n (stops_stepText step? h)
    have hnone : mark '-' (stepText step? ++ rest) = none := by
      cases step? with
      | none => exact h.mark_eq_none (by decide)
      | some step => rfl
    refine item_of_extent h ?_
    rw [text, List.append_assoc, n.extent_append, pair_eq_none_of_mark hn hnone, hn]
    rfl
  | days first last step? =>
    have hpair := pair_append (number_append first) (number_append last) (stops_stepText step? h)
    refine item_of_extent h ?_
    rw [text, List.append_assoc, List.cons_append, List.append_assoc, first.extent_append, hpair]
    rfl
  | name weekday =>
    have hword := word_append weekday h.stops
    have hnone := pair_eq_none_of_mark hword (h.mark_eq_none (by decide))
    rw [text, item_eq, weekday.extent_append, hnone, hword]
    rfl
  | names first last step? =>
    have hpair := pair_append (word_append first) (word_append last) (stops_stepText step? h)
    refine item_of_extent h ?_
    rw [text, List.append_assoc, List.cons_append, List.append_assoc, first.extent_append, hpair]
    rfl

/-! ## Lists of items -/

/-- The spellings of items with commas between them. -/
def spelled (items : List WeekdayItem) : List Char :=
  [','].intercalate (items.map WeekdayItem.text)

theorem spelled_cons (first : WeekdayItem) (more : List WeekdayItem) :
    spelled (first :: more) = first.text ++ more.flatMap fun i => ',' :: i.text := by
  have hflat := Text.flatMap_eq_cons_intercalate ','
    (List.cons_ne_nil first.text (more.map WeekdayItem.text))
  rw [List.flatMap_cons, List.cons_append, List.cons.injEq] at hflat
  rw [spelled, List.map_cons, ← hflat.2, List.flatMap_map]

theorem opens_spelled {items : List WeekdayItem} (hne : items ≠ []) : Opens (spelled items) := by
  obtain ⟨first, more, rfl⟩ := List.exists_cons_of_ne_nil hne
  rw [spelled_cons]
  exact first.opens.append _

theorem endsItem_flatMap (items : List WeekdayItem) :
    EndsItem (items.flatMap fun i => ',' :: i.text) := by
  cases items with
  | nil => nofun
  | cons i items =>
    intro c hc
    cases hc
    rfl

theorem moreItems_spelled : ∀ {items : List WeekdayItem} {fuel : Nat}, items.length ≤ fuel →
    moreItems true fuel (items.flatMap fun i => ',' :: i.text) = (items.map (·.item), [])
  | [], 0, _ => rfl
  | [], _ + 1, _ => rfl
  | i :: items, fuel + 1, h => by
    have ih := moreItems_spelled (Nat.le_of_succ_le_succ h)
    have hitem := i.item_text (endsItem_flatMap items)
    rw [List.flatMap_cons, List.cons_append, moreItems]
    rw [show mark ',' (',' :: (i.text ++ items.flatMap fun i => ',' :: i.text)) =
      some (i.text ++ items.flatMap fun i => ',' :: i.text) from rfl, Option.bind_some, hitem]
    simp only
    rw [ih]
    rfl

theorem isBlank_of_beginsField {c : Char} (h : beginsField c = true) : Text.isBlank c = false := by
  have hall : ∀ n < 0x80, beginsField (Char.ofNat n) = true →
      Text.isBlank (Char.ofNat n) = false := by decide
  have hc := hall c.toNat (ascii_of_beginsField h)
  rw [Char.ofNat_toNat] at hc
  exact hc h

/-- The spelling of an item has no blanks. -/
theorem WeekdayItem.isBlank_of_mem_text {i : WeekdayItem} {c : Char} (h : c ∈ i.text) :
    Text.isBlank c = false := by
  have hdigits {n : Numeral} (hc : c ∈ n.digits) : Text.isBlank c = false :=
    isBlank_of_beginsField (by simp [beginsField, n.isDigit c hc])
  have hletters {day : DayName} (hc : c ∈ day.letters) : Text.isBlank c = false :=
    isBlank_of_beginsField (by simp [beginsField, day.isAlpha.2 c hc])
  have hstep {step? : Option Stride} (hc : c ∈ stepText step?) : Text.isBlank c = false := by
    cases step? with
    | none => cases hc
    | some step =>
      rcases List.mem_cons.mp hc with rfl | hc
      · rfl
      · exact hdigits hc
  cases i with
  | every mark hmark step? =>
    rcases List.mem_cons.mp h with rfl | h
    · rcases hmark with rfl | rfl <;> rfl
    · exact hstep h
  | day n step? => exact (List.mem_append.mp h).elim hdigits hstep
  | days first last step? =>
    rcases List.mem_append.mp h with h | h
    · exact hdigits h
    · rcases List.mem_cons.mp h with rfl | h
      · rfl
      · exact (List.mem_append.mp h).elim hdigits hstep
  | name weekday => exact hletters h
  | names first last step? =>
    rcases List.mem_append.mp h with h | h
    · exact hletters h
    · rcases List.mem_cons.mp h with rfl | h
      · rfl
      · exact (List.mem_append.mp h).elim hletters hstep

/-- The spelling of a list of items has no blanks. -/
theorem isBlank_of_mem_spelled {items : List WeekdayItem} {c : Char} (h : c ∈ spelled items) :
    Text.isBlank c = false := by
  cases items with
  | nil => cases h
  | cons first more =>
    rw [spelled_cons] at h
    rcases List.mem_append.mp h with h | h
    · exact WeekdayItem.isBlank_of_mem_text h
    · obtain ⟨i, -, h⟩ := List.mem_flatMap.mp h
      rcases List.mem_cons.mp h with rfl | h
      · rfl
      · exact WeekdayItem.isBlank_of_mem_text h

/-- **A list of items is read from their spellings** with commas between them. -/
theorem field_spelled {items : List WeekdayItem} (hne : items ≠ []) :
    field true (spelled items) = some (items.map (·.item), []) := by
  obtain ⟨first, more, rfl⟩ := List.exists_cons_of_ne_nil hne
  have hskip : skipSpaces (spelled (first :: more)) = spelled (first :: more) := by
    obtain ⟨c, text, htext, hc⟩ := first.opens
    rw [spelled_cons, htext]
    exact List.dropWhile_cons_of_neg (by simp [(ne_of_beginsField hc).1])
  have hlength : ∀ items : List WeekdayItem,
      items.length ≤ (items.flatMap fun i => ',' :: i.text).length := by
    intro items
    induction items with
    | nil => exact Nat.le_refl 0
    | cons i items ih =>
      rw [List.flatMap_cons, List.length_append, List.length_cons, List.length_cons]
      omega
  unfold field
  rw [hskip, spelled_cons, first.item_text (endsItem_flatMap more)]
  simp only
  rw [moreItems_spelled (hlength more)]
  rfl

end CredentialRelay.Cron
