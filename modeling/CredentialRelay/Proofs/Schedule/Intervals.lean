import CredentialRelay.Proofs.Attempt
import CredentialRelay.Proofs.Text.Fields
import CredentialRelay.Proofs.Text.Lowercase
import CredentialRelay.Schedule.Descriptor
import Mathlib.Algebra.Order.Ring.Nat

/-!
# Intervals and their spellings

Behind its mark, an interval is spelled as groups of a number and a unit, in letters of any case.
There is only one way to take a spelling apart, since a group begins with a digit and no unit does.

* `Interval.Group`: a number below `2 ^ 64` in ASCII digits, with any zeros in front, and a unit.
* `Interval.Spells`: a text is some groups behind each other, up to the case of letters.

The sum of an interval is cut where it reaches `2 ^ 64` seconds, and a group of whole seconds a
second below that. Cutting after every group comes to the same as cutting once at the end.

Results:
* `groups?_eq_some_iff`: how a text is taken apart.
* `total_exact`, `total_cut`: what becomes of the exact sum.
* `parse_ok_iff`: which texts are read, and as which interval.
* `every_spelled`: all of it for descriptors, in whichever order the groups come.
-/

namespace CredentialRelay

/-- The letters of a unit. -/
def TimeUnit.letters : TimeUnit → List Char
  | .millisecond => ['m', 's']
  | .second => ['s']
  | .minute => ['m']
  | .hour => ['h']
  | .day => ['d']

theorem TimeUnit.letters_of_read? {c : Char} {unit : TimeUnit} {rest : List Char}
    (h : TimeUnit.read? [c] = some (unit, rest)) : unit.letters = [c] := by
  unfold TimeUnit.read? at h
  split at h
  · next heq => cases (List.cons.inj heq).2
  · next heq => cases h; cases heq; rfl
  · next heq => cases h; cases heq; rfl
  · next heq => cases h; cases heq; rfl
  · next heq => cases h; cases heq; rfl
  · cases h

namespace Interval

/-- A group as it is written. -/
structure Group where
  digits : List Char
  unit : TimeUnit
  nonempty : digits ≠ []
  isDigit : ∀ c ∈ digits, c.isDigit = true
  lt_size : Text.digitsValue 0 digits < Word.size64

namespace Group

/-- The number of a group. -/
def value (g : Group) : Nat :=
  Text.digitsValue 0 g.digits

/-- What a group stands for, however it is written. -/
def amount (g : Group) : Nat × TimeUnit :=
  (g.value, g.unit)

/-- The exact number of milliseconds of a group. -/
def millis (g : Group) : Nat :=
  g.value * g.unit.millis

/-- The digits and the unit of a group. -/
def parts (g : Group) : List Char × TimeUnit :=
  (g.digits, g.unit)

/-- The spelling of a group in lower case. -/
def text (g : Group) : List Char :=
  g.digits ++ g.unit.letters

end Group

/-- The exact number of milliseconds of some groups. -/
def exactMillis (groups : List Group) : Nat :=
  (groups.map Group.millis).sum

/-- Whether a text is some groups behind each other, up to the case of letters. -/
def Spells (text : String) (groups : List Group) : Prop :=
  groups ≠ [] ∧ text.toList.map Char.toLower = groups.flatMap Group.text

/-! ## Taking a text apart -/

/-- A run of decimal digits and a unit, as they are written. -/
def partsText (parts : List Char × TimeUnit) : List Char :=
  parts.1 ++ parts.2.letters

/-- A run of decimal digits that is not empty. -/
def IsRun (digits : List Char) : Prop :=
  digits ≠ [] ∧ ∀ c ∈ digits, Text.isDecimalDigit c = true

theorem ne_of_isDecimalDigit {c : Char} (h : Text.isDecimalDigit c = true) :
    c ≠ 'm' ∧ c ≠ 's' ∧ c ≠ '+' := by
  refine ⟨?_, ?_, ?_⟩ <;> (rintro rfl; exact absurd h (by decide))

theorem groups?_digit {c : Char} (h : Text.isDecimalDigit c = true) (acc cs : List Char) :
    groups? acc (c :: cs) = groups? (c :: acc) cs := by
  rw [groups?.eq_def acc (c :: cs)]
  split
  · next heq => cases heq
  · next heq => exact absurd (List.cons.inj heq).1 (ne_of_isDecimalDigit h).1
  · next heq =>
    obtain ⟨rfl, rfl⟩ := List.cons.inj heq
    exact if_pos h

theorem groups?_digits {digits : List Char} (h : ∀ c ∈ digits, Text.isDecimalDigit c = true)
    (cs : List Char) : ∀ acc : List Char,
      groups? acc (digits ++ cs) = groups? (digits.reverse ++ acc) cs := by
  induction digits with
  | nil => exact fun _ => rfl
  | cons c digits ih =>
    intro acc
    rw [List.cons_append, groups?_digit (h c List.mem_cons_self),
      ih fun d hd => h d (List.mem_cons_of_mem c hd)]
    simp

/-- Behind digits, a letter is read as a unit, if what follows does not turn minutes into
milliseconds. -/
theorem groups?_letter {acc cs : List Char} (hacc : acc ≠ []) {c : Char}
    (hc : Text.isDecimalDigit c = false) (hcs : cs.head? ≠ some 's') :
    groups? acc (c :: cs) =
      match TimeUnit.read? [c] with
      | some (unit, _) => (groups? [] cs).map ((acc.reverse, unit) :: ·)
      | none => none := by
  have hempty : acc.isEmpty = false := by simpa using hacc
  rw [groups?.eq_def acc (c :: cs)]
  split
  · next heq => cases heq
  · next heq =>
    rw [(List.cons.inj heq).2] at hcs
    exact absurd rfl hcs
  · next heq =>
    obtain ⟨rfl, rfl⟩ := List.cons.inj heq
    rw [if_neg (by simp [hc]), hempty]
    rfl

/-- Behind digits, a unit ends the group. -/
theorem groups?_unit {acc cs : List Char} (hacc : acc ≠ []) (hcs : cs.head? ≠ some 's')
    (unit : TimeUnit) : groups? acc (unit.letters ++ cs) =
      (groups? [] cs).map ((acc.reverse, unit) :: ·) := by
  cases unit with
  | millisecond =>
    have hempty : acc.isEmpty = false := by simpa using hacc
    simp [TimeUnit.letters, groups?, hempty]
  | second => exact groups?_letter hacc (by decide) hcs
  | minute => exact groups?_letter hacc (by decide) hcs
  | hour => exact groups?_letter hacc (by decide) hcs
  | day => exact groups?_letter hacc (by decide) hcs

/-- Groups behind each other are found again. -/
theorem groups?_flatMap : ∀ {parts : List (List Char × TimeUnit)}, (∀ p ∈ parts, IsRun p.1) →
    groups? [] (parts.flatMap partsText) = some parts
  | [], _ => rfl
  | (digits, unit) :: parts, h => by
    obtain ⟨hne, hdigits⟩ := h _ List.mem_cons_self
    have hmore : ∀ p ∈ parts, IsRun p.1 := fun p hp => h p (List.mem_cons_of_mem _ hp)
    have hhead : (parts.flatMap partsText).head? ≠ some 's' := by
      cases parts with
      | nil => exact nofun
      | cons p parts =>
        obtain ⟨hp, hall⟩ := hmore p List.mem_cons_self
        obtain ⟨c, cs, hc⟩ := List.exists_cons_of_ne_nil hp
        rw [List.flatMap_cons, partsText, hc]
        exact fun heq =>
          (ne_of_isDecimalDigit (hall c (hc ▸ List.mem_cons_self))).2.1 (Option.some.inj heq)
    have hacc : digits.reverse ++ [] ≠ [] := by simpa using hne
    rw [List.flatMap_cons, partsText, List.append_assoc, groups?_digits hdigits,
      groups?_unit hacc hhead, groups?_flatMap hmore]
    simp

/-- What is found is in the text, behind the digits that were read before. -/
theorem of_groups? {acc cs : List Char} {parts : List (List Char × TimeUnit)}
    (h : groups? acc cs = some parts) (hacc : ∀ c ∈ acc, Text.isDecimalDigit c = true) :
    acc.reverse ++ cs = parts.flatMap partsText ∧ ∀ p ∈ parts, IsRun p.1 := by
  have hrun {acc : List Char} (hempty : ¬ acc.isEmpty = true)
      (hacc : ∀ c ∈ acc, Text.isDecimalDigit c = true) : IsRun acc.reverse :=
    ⟨by simpa using hempty, fun c hc => hacc c (List.mem_reverse.mp hc)⟩
  fun_induction groups? acc cs generalizing parts with
  | case1 acc hempty =>
    cases h
    rw [List.isEmpty_iff.mp hempty]
    exact ⟨rfl, nofun⟩
  | case2 acc hempty => cases h
  | case3 acc cs hempty => cases h
  | case4 acc cs hempty ih =>
    obtain ⟨more, hmore, rfl⟩ := Option.map_eq_some_iff.mp h
    obtain ⟨htext, hall⟩ := ih hmore nofun
    refine ⟨?_, List.forall_mem_cons.mpr ⟨hrun hempty hacc, hall⟩⟩
    rw [List.flatMap_cons, ← htext]
    simp [partsText, TimeUnit.letters]
  | case5 acc c cs hmilli hdigit ih =>
    obtain ⟨htext, hall⟩ := ih h (List.forall_mem_cons.mpr ⟨hdigit, hacc⟩)
    exact ⟨by simpa using htext, hall⟩
  | case6 acc c cs hmilli hdigit hempty => cases h
  | case7 acc c cs hmilli hdigit hempty unit rest hread ih =>
    obtain ⟨more, hmore, rfl⟩ := Option.map_eq_some_iff.mp h
    obtain ⟨htext, hall⟩ := ih hmore nofun
    refine ⟨?_, List.forall_mem_cons.mpr ⟨hrun hempty hacc, hall⟩⟩
    rw [List.flatMap_cons, ← htext, partsText, TimeUnit.letters_of_read? hread]
    simp
  | case8 acc c cs hmilli hdigit hempty hread => cases h

/-- **How a text is taken apart.** -/
theorem groups?_eq_some_iff {cs : List Char} {parts : List (List Char × TimeUnit)} :
    groups? [] cs = some parts ↔ cs = parts.flatMap partsText ∧ ∀ p ∈ parts, IsRun p.1 := by
  constructor
  · exact fun h => of_groups? h nofun
  · rintro ⟨rfl, hall⟩
    exact groups?_flatMap hall

/-! ## Numbers -/

theorem isDecimalDigit_of_isDigit {c : Char} (h : c.isDigit = true) :
    Text.isDecimalDigit c = true := by
  simp only [Char.isDigit, Bool.and_eq_true, decide_eq_true_eq, UInt32.le_iff_toNat_le] at h
  exact Text.Ranges.contains_iff.mpr ⟨(0x30, 0x39), List.mem_cons_self, h⟩

theorem Group.isRun (g : Group) : IsRun g.parts.1 :=
  ⟨g.nonempty, fun c hc => isDecimalDigit_of_isDigit (g.isDigit c hc)⟩

/-- A run of decimal digits is a number exactly if they are digits of ASCII and it is not too
large. -/
theorem readNatural_eq_ok_iff {digits : List Char} (h : IsRun digits) {n : Nat} :
    Text.readNatural Word.size64 digits = .ok n ↔
      digits.all Char.isDigit = true ∧ Text.digitsValue 0 digits = n ∧ n < Word.size64 := by
  have hread : Text.readNatural Word.size64 digits = Text.readDigits Word.size64 0 digits := by
    obtain ⟨hne, hdigits⟩ := h
    obtain ⟨c, digits, rfl⟩ := List.exists_cons_of_ne_nil hne
    have hsign := (ne_of_isDecimalDigit (hdigits c List.mem_cons_self)).2.2
    unfold Text.readNatural
    split
    · next heq => cases heq
    · next heq => exact absurd (List.cons.inj heq).1 hsign
    · next heq => exact absurd (List.cons.inj heq).1 hsign
    · rfl
  rw [hread]
  exact Text.readDigits_eq_ok_iff (by decide)

theorem Group.readNatural_digits (g : Group) :
    Text.readNatural Word.size64 g.digits = .ok g.value :=
  (readNatural_eq_ok_iff g.isRun).mpr ⟨List.all_eq_true.mpr g.isDigit, rfl, g.lt_size⟩

/-! ## Sums -/

/-- The milliseconds of a group that are kept. -/
def Group.keptMillis (g : Group) : Nat :=
  groupMillis g.value g.unit

/-- The milliseconds of some groups that are kept. -/
def total (groups : List Group) : Nat :=
  min (groups.map Group.keptMillis).sum maxMillis

/-- **Cutting after every group comes to the same as cutting once at the end.** -/
theorem sum_parts (text : String) : ∀ (groups : List Group) {start : Nat}, start ≤ maxMillis →
    sum text start (groups.map Group.parts) =
      .ok (min (start + (groups.map Group.keptMillis).sum) maxMillis)
  | [], start, h => by
    rw [List.map_nil, List.map_nil, List.sum_nil, Nat.add_zero, Nat.min_eq_left h]
    rfl
  | g :: groups, start, h => by
    have hadd : add start g.keptMillis = min (start + g.keptMillis) maxMillis := rfl
    have hkept : add start g.keptMillis ≤ maxMillis := Nat.min_le_right _ _
    have ih := sum_parts text groups hkept
    rw [List.map_cons, List.map_cons, List.sum_cons, show g.parts = (g.digits, g.unit) from rfl, sum,
      g.readNatural_digits]
    refine ih.trans (congrArg Except.ok ?_)
    omega

/-- Parts that add up to something are groups. -/
theorem exists_groups_of_sum {text : String} : ∀ {parts : List (List Char × TimeUnit)}
    {start n : Nat}, (∀ p ∈ parts, IsRun p.1) → sum text start parts = .ok n →
    ∃ groups : List Group, groups.map Group.parts = parts
  | [], _, _, _, _ => ⟨[], rfl⟩
  | (digits, unit) :: parts, start, n, hruns, h => by
    have hrun := hruns _ List.mem_cons_self
    rw [sum.eq_def] at h
    dsimp only at h
    split at h
    · next v hread =>
      obtain ⟨hdigits, hvalue, hlt⟩ := (readNatural_eq_ok_iff hrun).mp hread
      obtain ⟨groups, rfl⟩ :=
        exists_groups_of_sum (fun p hp => hruns p (List.mem_cons_of_mem _ hp)) h
      exact ⟨⟨digits, unit, hrun.1, List.all_eq_true.mp hdigits, hvalue ▸ hlt⟩ :: groups, rfl⟩
    · cases h

theorem TimeUnit.millis_cases (unit : TimeUnit) : unit = .millisecond ∨
    (∀ n, groupMillis n unit = min (n * unit.millis) maxWholeMillis) ∧ 1000 ∣ unit.millis := by
  cases unit with
  | millisecond => exact .inl rfl
  | second => exact .inr ⟨fun _ => rfl, by decide⟩
  | minute => exact .inr ⟨fun _ => rfl, by decide⟩
  | hour => exact .inr ⟨fun _ => rfl, by decide⟩
  | day => exact .inr ⟨fun _ => rfl, by decide⟩

/-- A group of `2 ^ 64` seconds or more is cut. -/
theorem Group.keptMillis_eq (g : Group) : g.keptMillis = g.millis ∨
    g.keptMillis = maxWholeMillis ∧ Word.size64 * 1000 ≤ g.millis := by
  unfold keptMillis millis
  rcases TimeUnit.millis_cases g.unit with hunit | ⟨hcut, hwhole⟩
  · rw [hunit]
    exact .inl (Nat.mul_one _).symm
  · obtain ⟨seconds, hseconds⟩ : 1000 ∣ g.value * g.unit.millis :=
      Nat.dvd_mul_left_of_dvd hwhole g.value
    rw [hcut, hseconds]
    unfold maxWholeMillis
    generalize Word.size64 = size
    omega

/-- All is kept, or what is kept of one group is as much as can be asked for. -/
theorem sum_keptMillis : ∀ groups : List Group,
    (groups.map Group.keptMillis).sum = exactMillis groups ∨
      maxWholeMillis ≤ (groups.map Group.keptMillis).sum ∧
        Word.size64 * 1000 ≤ exactMillis groups
  | [] => .inl rfl
  | g :: groups => by
    have ih := sum_keptMillis groups
    have hg := g.keptMillis_eq
    have hexact : exactMillis (g :: groups) = g.millis + exactMillis groups := by
      rw [exactMillis, List.map_cons, List.sum_cons]
      rfl
    rw [hexact, List.map_cons, List.sum_cons]
    omega

/-- **Below `2 ^ 64` seconds**, the sum is exact. -/
theorem total_exact {groups : List Group} (h : exactMillis groups < Word.size64 * 1000) :
    total groups = exactMillis groups := by
  have hkept := sum_keptMillis groups
  unfold total maxMillis
  generalize Word.size64 = size at h hkept ⊢
  omega

/-- **From `2 ^ 64` seconds on**, a second less is kept at least. -/
theorem total_cut {groups : List Group} (h : Word.size64 * 1000 ≤ exactMillis groups) :
    maxWholeMillis ≤ total groups := by
  have hsize : maxWholeMillis ≤ Word.size64 * 1000 := by decide
  refine Nat.le_min.mpr ⟨?_, by decide⟩
  rcases sum_keptMillis groups with hkept | ⟨hkept, -⟩
  · rw [hkept]
    exact Nat.le_trans hsize h
  · exact hkept

theorem Group.keptMillis_eq_zero_iff (g : Group) : g.keptMillis = 0 ↔ g.value = 0 := by
  have hpos : 0 < g.unit.millis := by cases g.unit <;> decide
  have hmax : maxWholeMillis ≠ 0 := by decide
  have hzero : g.millis = 0 ↔ g.value = 0 := by
    rw [millis, Nat.mul_eq_zero]
    exact or_iff_left (Nat.ne_of_gt hpos)
  rw [← hzero]
  rcases g.keptMillis_eq with hkept | ⟨hkept, hge⟩
  · rw [hkept]
  · have hsize : 0 < Word.size64 * 1000 := by decide
    rw [hkept]
    exact iff_of_false hmax (Nat.ne_of_gt (Nat.lt_of_lt_of_le hsize hge))

/-- Groups add up to something exactly if one of them has a number other than 0. -/
theorem total_pos_iff {groups : List Group} : 0 < total groups ↔ ∃ g ∈ groups, g.value ≠ 0 := by
  have hsum : (groups.map Group.keptMillis).sum = 0 ↔ ∀ g ∈ groups, g.value = 0 := by
    induction groups with
    | nil => exact iff_of_true rfl nofun
    | cons g groups ih =>
      rw [List.map_cons, List.sum_cons, Nat.add_eq_zero_iff, ih, g.keptMillis_eq_zero_iff,
        List.forall_mem_cons]
  have hmax : 0 < maxMillis := by decide
  have htotal : total groups = 0 ↔ (groups.map Group.keptMillis).sum = 0 := by
    unfold total
    generalize maxMillis = most at hmax
    omega
  rw [Nat.pos_iff_ne_zero, ne_eq, htotal, hsum]
  simp

/-- What groups add up to does not depend on their order, nor on how their numbers are written. -/
theorem total_congr {groups groups' : List Group}
    (h : (groups.map Group.amount).Perm (groups'.map Group.amount)) :
    total groups = total groups' := by
  have hkept (groups : List Group) : groups.map Group.keptMillis =
      (groups.map Group.amount).map fun amount => groupMillis amount.1 amount.2 := by
    rw [List.map_map]
    rfl
  unfold total
  rw [hkept, hkept, (h.map _).sum_nat]

/-! ## Reading -/

/-- The letters of units and the digits are letters and digits of ASCII other than `i` and `k`. -/
theorem plain_of_mem_text {g : Group} {c : Char} (h : c ∈ g.text) :
    (c.toNat < 0x80 ∧ c ≠ 'i' ∧ c ≠ 'k') ∧ Text.isBlank c = false := by
  rcases List.mem_append.mp h with hdigit | hletter
  · have hall : ∀ n < 0x3a, (Char.ofNat n).isDigit = true →
        ((Char.ofNat n).toNat < 0x80 ∧ Char.ofNat n ≠ 'i' ∧ Char.ofNat n ≠ 'k') ∧
          Text.isBlank (Char.ofNat n) = false := by decide
    have hc := g.isDigit c hdigit
    have hlt : c.toNat < 0x3a := by
      simp only [Char.isDigit, Bool.and_eq_true, decide_eq_true_eq, UInt32.le_iff_toNat_le] at hc
      exact Nat.lt_succ_of_le hc.2
    have hplain := hall c.toNat hlt
    rw [Char.ofNat_toNat] at hplain
    exact hplain hc
  · have hall : ∀ unit : TimeUnit, unit.letters.all fun c =>
        (c.toNat < 0x80 ∧ c ≠ 'i' ∧ c ≠ 'k') ∧ Text.isBlank c = false := by
      intro unit
      cases unit <;> decide
    exact of_decide_eq_true (List.all_eq_true.mp (hall g.unit) c hletter)

/-- Up to the case of letters, a text and its lower-case form spell the same groups. -/
theorem lowercase_eq_iff {text : String} {groups : List Group} :
    (Text.lowercase text).toList = groups.flatMap Group.text ↔
      text.toList.map Char.toLower = groups.flatMap Group.text := by
  unfold Text.lowercase
  rw [String.toList_ofList]
  refine Text.lowercaseFrom_eq_iff fun c hc => ?_
  obtain ⟨g, -, hc⟩ := List.mem_flatMap.mp hc
  exact (plain_of_mem_text hc).1

/-- There are no blanks within a spelling. -/
theorem isBlank_of_spells {text : String} {groups : List Group}
    (h : Spells text groups) : ∀ c ∈ text.toList, Text.isBlank c = false := by
  intro c hc
  have hmem : c.toLower ∈ groups.flatMap Group.text :=
    h.2 ▸ List.mem_map_of_mem hc
  obtain ⟨g, -, hg⟩ := List.mem_flatMap.mp hmem
  rw [← Text.isBlank_toLower]
  exact (plain_of_mem_text hg).2

theorem flatMap_parts (groups : List Group) :
    (groups.map Group.parts).flatMap partsText = groups.flatMap Group.text := by
  rw [List.flatMap_map]
  rfl

/-- How the spelling of some groups is read. -/
theorem parse_of_spells {text : String} {groups : List Group} (h : Spells text groups) :
    Interval.parse text =
      if h : 0 < total groups then .ok ⟨total groups, h⟩ else fail (.zero text) := by
  obtain ⟨hne, htext⟩ := h
  have hgroups : groups? [] (Text.lowercase text).toList = some (groups.map Group.parts) := by
    rw [groups?_eq_some_iff, flatMap_parts]
    refine ⟨lowercase_eq_iff.mpr htext, fun p hp => ?_⟩
    obtain ⟨g, -, rfl⟩ := List.mem_map.mp hp
    exact g.isRun
  have hsum := sum_parts text groups (Nat.zero_le maxMillis)
  rw [Nat.zero_add] at hsum
  obtain ⟨g, groups, rfl⟩ := List.exists_cons_of_ne_nil hne
  unfold Interval.parse
  rw [hgroups, List.map_cons]
  dsimp only
  rw [← List.map_cons, hsum]
  rfl

/-- **What is read, is spelled** as some groups. -/
theorem exists_spells_of_parse {text : String} {interval : Interval}
    (h : Interval.parse text = .ok interval) : ∃ groups, Spells text groups := by
  unfold Interval.parse at h
  split at h
  · cases h
  · cases h
  · next parts hempty hparts =>
    obtain ⟨htext, hruns⟩ := groups?_eq_some_iff.mp hparts
    split at h
    · cases h
    · next n hsum =>
      obtain ⟨groups, rfl⟩ := exists_groups_of_sum hruns hsum
      refine ⟨groups, fun hnil => hempty (by rw [hnil]; rfl), ?_⟩
      rw [← lowercase_eq_iff, htext, flatMap_parts]

/-- **Which texts are read**, and as which interval. -/
theorem parse_ok_iff {text : String} {interval : Interval} : Interval.parse text = .ok interval ↔
    ∃ groups, Spells text groups ∧ interval.millis = total groups := by
  constructor
  · intro h
    obtain ⟨groups, hspells⟩ := exists_spells_of_parse h
    refine ⟨groups, hspells, ?_⟩
    rw [parse_of_spells hspells] at h
    split at h
    · cases h
      rfl
    · cases h
  · rintro ⟨groups, hspells, htotal⟩
    obtain ⟨millis, hpos⟩ := interval
    obtain rfl : millis = total groups := htotal
    rw [parse_of_spells hspells, dif_pos hpos]

end Interval

namespace Schedule

open CredentialRelay.Interval (Group Spells)

/-- Behind its mark, an interval is read without the blanks around it. -/
theorem parse_every (text : String) :
    parse ("@every" ++ text) =
      match Interval.parse (Text.trim text) with
      | .ok interval => .ok (.every interval)
      | .error failure => .error (failure.map .interval) := by
  have htrim : (Text.trim ("@every" ++ text)).toList =
      everyMark ++ Text.dropEndWhile Text.isBlank text.toList :=
    Text.toList_trim_append "@every" text (by decide) rfl
  have hempty : (Text.trim ("@every" ++ text)).isEmpty = false := by
    rw [String.isEmpty_eq_false_iff]
    intro heq
    rw [heq] at htrim
    cases htrim
  have hmark : everyMark.isPrefixOf (Text.trim ("@every" ++ text)).toList = true := by
    rw [htrim, List.isPrefixOf_iff_prefix]
    exact List.prefix_append _ _
  have hrest : Text.trim (String.ofList
      ((Text.trim ("@every" ++ text)).toList.drop everyMark.length)) = Text.trim text := by
    rw [htrim, List.drop_left]
    unfold Text.trim
    rw [String.toList_ofList, Text.trimBy_dropEndWhile]
  cases hread : Interval.parse (Text.trim text) <;> simp [parse, hempty, hmark, hrest, hread]

/-- What is accepted behind the mark, is spelled as some groups. -/
theorem exists_spells_of_parse_every {text : String} {s : Schedule}
    (h : parse ("@every" ++ text) = .ok s) : ∃ groups, Spells (Text.trim text) groups := by
  rw [parse_every] at h
  split at h
  · next interval hread => exact Interval.exists_spells_of_parse hread
  · cases h

/-- What is read as an interval has two fields at most. -/
theorem length_fields_le_two {text : String} {interval : Interval}
    (h : parse text = .ok (.every interval)) : (Text.fields text).length ≤ 2 := by
  rcases parse_ok h with ⟨⟨rest, hrest⟩, _, hread, -⟩ | ⟨source, times, -, -, heq⟩
  · have htext : Text.trim text = "@every" ++ String.ofList rest := by
      rw [← String.toList_inj, ← hrest, String.toList_append]
      show _ = everyMark ++ (String.ofList rest).toList
      rw [String.toList_ofList]
    rw [← hrest, List.drop_left] at hread
    obtain ⟨groups, hspells⟩ := Interval.exists_spells_of_parse hread
    have hone := Text.length_fields_le_one (Interval.isBlank_of_spells hspells)
    have hboth := Text.length_fields_append_le "@every" (String.ofList rest)
    have hmark : (Text.fields "@every").length = 1 := by decide
    rw [Text.fields_trim] at hone
    rw [← Text.fields_trim, htext]
    omega
  · cases heq

/-- How the spelling of some groups is read behind the mark. -/
theorem parse_every_ok_iff {text : String} {groups : List Group}
    (h : Spells (Text.trim text) groups) {s : Schedule} : parse ("@every" ++ text) = .ok s ↔
      ∃ interval : Interval, interval.millis = Interval.total groups ∧ s = .every interval := by
  rw [parse_every]
  constructor
  · intro hread
    rw [Interval.parse_of_spells h] at hread
    split at hread
    · next interval heq =>
      split at heq
      · cases heq
        cases hread
        exact ⟨_, rfl, rfl⟩
      · cases heq
    · cases hread
  · rintro ⟨interval, htotal, rfl⟩
    rw [Interval.parse_ok_iff.mpr ⟨groups, h, htotal⟩]

/-- **Which intervals are accepted, and how long they are.** An interval is accepted exactly if it
is spelled as some groups with a number other than 0 among them; it is their exact sum below
`2 ^ 64` seconds, and at most a second less than `2 ^ 64` seconds otherwise; and it is the same for
the same amounts in any order and with any zeros in front. -/
theorem every_spelled (text : String) :
    ((∃ s, parse ("@every" ++ text) = .ok s) ↔
      ∃ groups, Spells (Text.trim text) groups ∧ ∃ g ∈ groups, g.value ≠ 0) ∧
    ∀ s groups, parse ("@every" ++ text) = .ok s → Spells (Text.trim text) groups →
      (∃ interval : Interval, s = .every interval ∧
        (Interval.exactMillis groups < Word.size64 * 1000 →
          interval.millis = Interval.exactMillis groups) ∧
        (Word.size64 * 1000 ≤ Interval.exactMillis groups →
          (Word.size64 - 1) * 1000 ≤ interval.millis)) ∧
      ∀ text' groups', Spells (Text.trim text') groups' →
        (groups'.map Group.amount).Perm (groups.map Group.amount) →
        parse ("@every" ++ text') = .ok s := by
  refine ⟨⟨?_, ?_⟩, fun s groups hread hspells => ?_⟩
  · rintro ⟨s, hread⟩
    obtain ⟨groups, hspells⟩ := exists_spells_of_parse_every hread
    obtain ⟨interval, htotal, -⟩ := (parse_every_ok_iff hspells).mp hread
    exact ⟨groups, hspells, Interval.total_pos_iff.mp (htotal ▸ interval.positive)⟩
  · rintro ⟨groups, hspells, hnonzero⟩
    exact ⟨_, (parse_every_ok_iff hspells).mpr
      ⟨⟨_, Interval.total_pos_iff.mpr hnonzero⟩, rfl, rfl⟩⟩
  · obtain ⟨interval, htotal, rfl⟩ := (parse_every_ok_iff hspells).mp hread
    refine ⟨⟨interval, rfl, fun h => ?_, fun h => ?_⟩, fun text' groups' hspells' hperm => ?_⟩
    · rw [htotal, Interval.total_exact h]
    · rw [htotal]
      exact Interval.total_cut h
    · refine (parse_every_ok_iff hspells').mpr ⟨interval, ?_, rfl⟩
      rw [htotal, Interval.total_congr hperm]

/-- An hour and thirty minutes, in letters of both cases. -/
def ninetyMinutes : List Group :=
  [⟨['1'], .hour, List.cons_ne_nil _ _, List.all_eq_true.mp rfl, by decide⟩,
    ⟨['3', '0'], .minute, List.cons_ne_nil _ _, List.all_eq_true.mp rfl, by decide⟩]

/-- Thirty minutes and an hour, with zeros in front. -/
def ninetyPaddedMinutes : List Group :=
  [⟨['0', '3', '0'], .minute, List.cons_ne_nil _ _, List.all_eq_true.mp rfl, by decide⟩,
    ⟨['0', '1'], .hour, List.cons_ne_nil _ _, List.all_eq_true.mp rfl, by decide⟩]

theorem every_spelled_ninetyMinutes :
    Spells (Text.trim " 1H30m ") ninetyMinutes ∧ Spells (Text.trim "030m01h") ninetyPaddedMinutes ∧
      ∃ s, parse ("@every" ++ " 1H30m ") = .ok s ∧ parse ("@every" ++ "030m01h") = .ok s := by
  have hspells : Spells (Text.trim " 1H30m ") ninetyMinutes := ⟨List.cons_ne_nil _ _, by rfl⟩
  have hspells' : Spells (Text.trim "030m01h") ninetyPaddedMinutes := ⟨List.cons_ne_nil _ _, by rfl⟩
  have hnonzero : ∃ g ∈ ninetyMinutes, g.value ≠ 0 := ⟨_, List.mem_cons_self, by decide⟩
  obtain ⟨haccepted, hread⟩ := every_spelled " 1H30m "
  obtain ⟨s, hs⟩ := haccepted.mpr ⟨ninetyMinutes, hspells, hnonzero⟩
  refine ⟨hspells, hspells', s, hs, (hread s ninetyMinutes hs hspells).2 _ _ hspells' ?_⟩
  exact .swap _ _ _

end Schedule

end CredentialRelay
