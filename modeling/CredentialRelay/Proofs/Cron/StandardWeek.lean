import CredentialRelay.Proofs.Cron.Numbering

/-!
# The standard week

In the standard numbering, 0 is Sunday, 1 is Monday, and 7 is Sunday again: a number of its own, but
no day of its own. Renumbering an item keeps its days, or it does not, depending on how a range that
ends in 7 is written.

* `WeekdayItem.numbers` are the numbers that an item stands for in the standard numbering, and
  `WeekdayItem.Means` the weekdays that these are.
* `WeekdayItem.Accepted` and `WeekdayItem.FiresOn` tell what becomes of an item that is renumbered.
* `WeekdayItem.Faithful`: a range does not end in 7, or is written in a way that is understood.

Results:
* `WeekdayItem.kept_of_shifted`: an item whose numbers only move up by one keeps its days.
* `WeekdayItem.kept_iff`: an item keeps its days exactly if it is faithful.
-/

namespace CredentialRelay.Cron

/-- How far apart the numbers of an item are. -/
def strideOf : Option Stride → Nat
  | none => 1
  | some step => step.value

namespace WeekdayItem

/-- Whether an item belongs to the standard numbering. -/
def Standard : WeekdayItem → Prop
  | .every .. => True
  | .day n step? => step?.isSome = true → n.value ≤ 6
  | .days first last _ => first.value ≤ last.value
  | .name _ => True
  | .names first last _ => first.number ≤ last.number

/-- The numbers that an item stands for, from 0 to 7. -/
def numbers : WeekdayItem → Progression
  | .every _ _ step? => ⟨0, 6, strideOf step?⟩
  | .day n none => ⟨n.value, n.value, 1⟩
  | .day n (some step) => ⟨n.value, 6, step.value⟩
  | .days first last step? => ⟨first.value, last.value, strideOf step?⟩
  | .name weekday => ⟨weekday.number - 1, weekday.number - 1, 1⟩
  | .names first last step? => ⟨first.number - 1, last.number - 1, strideOf step?⟩

/-- Whether a weekday, from Sunday, which is 0, to 6, is one of an item. -/
def Means (i : WeekdayItem) (weekday : Nat) : Prop :=
  ∃ n, i.numbers.contains n = true ∧ n % 7 = weekday

/-- A range with a step from a day after Sunday to the next Sunday. -/
def WrapsStepped : WeekdayItem → Prop
  | .days first last (some _) => 0 < first.value ∧ last.value = 7
  | _ => False

/-- A range that does not end in 7, or is written in a way that is understood: the 7 at its end is a
single digit, and so is a 0 at its start if there is a step. A range from 7 to 7 without a step is
understood only if there are zeros in front of the second 7, and one from 0 to such a 7 only if the
step goes straight to it. -/
def Faithful : WeekdayItem → Prop
  | .days first last none => last.value = 7 → (last.digits = ['7'] ↔ first.value ≠ 7)
  | .days first last (some step) =>
    last.value = 7 →
      if last.digits = ['7'] then first.value = 0 → first.digits = ['0']
      else first.value ≠ 7 ∧ (first.value = 0 → step.value = 7)
  | _ => True

/-- Whether an item can be read once it is renumbered. -/
def Accepted (i : WeekdayItem) : Prop :=
  ∃ js, i.renumbered = .ok js ∧ ∀ j ∈ js, ∃ p, j.item.progression .weekday = .ok p

/-- Whether a weekday, from Sunday, which is 0, to 6, is one of an item once it is renumbered. -/
def FiresOn (i : WeekdayItem) (weekday : Nat) : Prop :=
  ∃ js, i.renumbered = .ok js ∧
    ∃ j ∈ js, ∃ p, j.item.progression .weekday = .ok p ∧ p.contains (weekday + 1) = true

/-- Whether an item is accepted unless it is a stepped range that wraps, with the days that it
means. -/
def Kept (i : WeekdayItem) : Prop :=
  (i.Accepted ↔ ¬ i.WrapsStepped) ∧
    (i.Accepted → ∀ weekday < 7, i.FiresOn weekday ↔ i.Means weekday)

end WeekdayItem

/-! ## Reading renumbered items -/

theorem Progression.contains_iff {p : Progression} {n : Nat} :
    p.contains n = true ↔ p.low ≤ n ∧ n ≤ p.high ∧ (n - p.low) % p.step = 0 := by
  simp [Progression.contains, and_assoc]

/-- Everything moved up by one. -/
theorem Progression.contains_succ (low high step n : Nat) :
    (Progression.mk (low + 1) (high + 1) step).contains (n + 1) =
      (Progression.mk low high step).contains n := by
  simp [Progression.contains]

/-- Any step of an item can be read. -/
theorem progression_withStep {e : Extent} (h : ∀ n, e ≠ .point n) (step? : Option Stride) :
    (e.withStep step?).progression .weekday =
      (e.bounds .weekday).map fun bounds => ⟨bounds.1, bounds.2, strideOf step?⟩ := by
  cases step? with
  | none => rfl
  | some step =>
    have hpos : step.value ≠ 0 := Nat.ne_of_gt step.positive
    have hle : ¬ Part.weekday.last < step.value := Nat.not_lt.mpr step.value_le
    show (Item.stepped e step.value).progression .weekday = _
    unfold Item.progression
    simp only
    rw [if_neg hpos, if_neg hle]
    cases e with
    | point n => exact absurd rfl (h n)
    | all => rfl
    | range first last => rfl
    | namedRange first last => rfl

namespace WeekdayItem

theorem progression_every (mark : Char) (h : mark = '*' ∨ mark = '?') (step? : Option Stride) :
    (every mark h step?).item.progression .weekday = .ok ⟨1, 7, strideOf step?⟩ :=
  progression_withStep (fun _ h => by cases h) step?

/-- A day with a step goes on up to 7. -/
theorem progression_day {n : Numeral} (h : 0 < n.value) (step? : Option Stride) :
    (day n step?).item.progression .weekday =
      .ok ⟨n.value, if step?.isSome then 7 else n.value, strideOf step?⟩ := by
  have hcheck : Part.weekday.check n.value = .ok n.value := by
    unfold Part.check
    rw [if_neg (show ¬ n.value < Part.weekday.first from Nat.not_lt.mpr h),
      if_neg (show ¬ Part.weekday.last < n.value from Nat.not_lt.mpr n.value_le)]
  cases step? with
  | none =>
    show ((Part.weekday.check n.value).map fun n => (n, n)).map _ = _
    rw [hcheck]
    rfl
  | some step =>
    have hpos : step.value ≠ 0 := Nat.ne_of_gt step.positive
    have hle : ¬ Part.weekday.last < step.value := Nat.not_lt.mpr step.value_le
    show (Item.stepped (.point n.value) step.value).progression .weekday = _
    unfold Item.progression
    simp only
    rw [if_neg hpos, if_neg hle, hcheck]
    rfl

/-- A range is read if its days are in order. -/
theorem progression_days {first last : Numeral} (h : 0 < first.value) (step? : Option Stride) :
    (days first last step?).item.progression .weekday =
      if first.value ≤ last.value then .ok ⟨first.value, last.value, strideOf step?⟩
      else .error (.badRange .weekday first.value last.value) := by
  have hbounds : (Extent.range first.value last.value).bounds .weekday =
      if first.value ≤ last.value then .ok (first.value, last.value)
      else .error (.badRange .weekday first.value last.value) := by
    show (if 1 ≤ first.value ∧ first.value ≤ last.value ∧ last.value ≤ 7 then _ else _) = _
    have hlast := last.value_le
    by_cases hle : first.value ≤ last.value
    · rw [if_pos ⟨h, hle, hlast⟩, if_pos hle]
    · rw [if_neg fun hall => hle hall.2.1, if_neg hle]
  have hread := progression_withStep (e := .range first.value last.value)
    (fun _ h => by cases h) step?
  rw [hbounds] at hread
  rw [item, hread]
  split <;> rfl

theorem progression_name (weekday : DayName) :
    (name weekday).item.progression .weekday = .ok ⟨weekday.number, weekday.number, 1⟩ := by
  show (Part.weekday.ofName (String.ofList weekday.letters)).map _ = _
  rw [weekday.ofName_letters]
  rfl

theorem progression_names {first last : DayName} (h : first.number ≤ last.number)
    (step? : Option Stride) : (names first last step?).item.progression .weekday =
      .ok ⟨first.number, last.number, strideOf step?⟩ := by
  rw [item, progression_withStep (fun _ h => by cases h) step?]
  show Except.map _ (Part.weekday.ofName _ >>= _) = _
  rw [first.ofName_letters]
  show Except.map _ (Part.weekday.ofName _ >>= _) = _
  rw [last.ofName_letters]
  show Except.map _ (if first.number ≤ last.number then _ else _) = _
  rw [if_pos h]
  rfl

/-! ## Which items keep their days -/

variable {i j : WeekdayItem} {p : Progression}

theorem accepted_iff {js : List WeekdayItem} (hi : i.renumbered = .ok js) :
    i.Accepted ↔ ∀ j ∈ js, ∃ p, j.item.progression .weekday = .ok p := by
  constructor
  · rintro ⟨ks, hks, hall⟩
    exact Except.ok.inj (hks.symm.trans hi) ▸ hall
  · exact fun hall => ⟨js, hi, hall⟩

theorem firesOn_iff {js : List WeekdayItem} (hi : i.renumbered = .ok js) {weekday : Nat} :
    i.FiresOn weekday ↔
      ∃ j ∈ js, ∃ p, j.item.progression .weekday = .ok p ∧ p.contains (weekday + 1) = true := by
  constructor
  · rintro ⟨ks, hks, hany⟩
    exact Except.ok.inj (hks.symm.trans hi) ▸ hany
  · exact fun hany => ⟨js, hi, hany⟩

/-- What becomes of an item that is renumbered into one that can be read. -/
theorem read_of_renumbered (hi : i.renumbered = .ok [j])
    (hj : j.item.progression .weekday = .ok p) :
    i.Accepted ∧ ∀ weekday, i.FiresOn weekday ↔ p.contains (weekday + 1) = true :=
  ⟨by simp [accepted_iff hi, hj], fun weekday => by simp [firesOn_iff hi, hj]⟩

/-- Without 7, a number is a day of its own. -/
theorem means_iff_of_le {low high step weekday : Nat} (hi : i.numbers = ⟨low, high, step⟩)
    (hhigh : high ≤ 6) (hweekday : weekday < 7) :
    i.Means weekday ↔ (Progression.mk low high step).contains weekday = true := by
  constructor
  · rintro ⟨n, hn, rfl⟩
    rw [hi] at hn
    have hle : n ≤ high := (Progression.contains_iff.mp hn).2.1
    rwa [Nat.mod_eq_of_lt (by omega)]
  · exact fun h => ⟨weekday, hi ▸ h, Nat.mod_eq_of_lt hweekday⟩

/-- For an item that is accepted by right, only its days matter. -/
theorem kept_iff_of_accepted (haccepted : i.Accepted) (hwraps : ¬ i.WrapsStepped) :
    i.Kept ↔ ∀ weekday < 7, (i.FiresOn weekday ↔ i.Means weekday) :=
  (and_iff_right (iff_of_true haccepted hwraps)).trans (forall_prop_of_true haccepted)

/-- **An item whose numbers only move up by one keeps its days.** -/
theorem kept_of_shifted {low high step : Nat} (hi : i.renumbered = .ok [j])
    (hj : j.item.progression .weekday = .ok ⟨low + 1, high + 1, step⟩)
    (hnumbers : i.numbers = ⟨low, high, step⟩) (hhigh : high ≤ 6) (hwraps : ¬ i.WrapsStepped) :
    i.Kept := by
  obtain ⟨haccepted, hfires⟩ := read_of_renumbered hi hj
  refine ⟨iff_of_true haccepted hwraps, fun _ weekday hweekday => ?_⟩
  rw [hfires, means_iff_of_le hnumbers hhigh hweekday, Progression.contains_succ]

theorem kept_day {n : Numeral} {step? : Option Stride} (h : (day n step?).Standard) :
    (day n step?).Kept := by
  have hj := progression_day (n := n.next) (by simp) step?
  rw [Numeral.value_next] at hj
  have hle := n.value_le
  cases step? with
  | some step =>
    have hsix : n.value ≤ 6 := h rfl
    rw [Nat.mod_eq_of_lt (by omega)] at hj
    exact kept_of_shifted rfl hj rfl (Nat.le_refl 6) id
  | none =>
    by_cases hsix : n.value ≤ 6
    · rw [Nat.mod_eq_of_lt (by omega)] at hj
      exact kept_of_shifted rfl hj rfl hsix id
    · have hseven : n.value = 7 := by omega
      rw [hseven] at hj
      replace hj : (day n.next none).item.progression .weekday = .ok ⟨1, 1, 1⟩ := hj
      obtain ⟨haccepted, hfires⟩ := read_of_renumbered (i := day n none) rfl hj
      refine ⟨iff_of_true haccepted id, fun _ weekday hweekday => ?_⟩
      have hmeans : (day n none).Means weekday ↔ weekday = 0 := by
        simp only [Means, numbers, Progression.contains_iff, hseven, Nat.mod_one, and_true]
        constructor
        · rintro ⟨m, hm, rfl⟩
          omega
        · rintro rfl
          exact ⟨7, by omega, rfl⟩
      rw [hfires, hmeans, Progression.contains_iff]
      simp only [Nat.mod_one, and_true]
      omega

theorem kept_names {first last : DayName} {step? : Option Stride} (h : first.number ≤ last.number) :
    (names first last step?).Kept := by
  have hfirst := first.bounds
  have hlast := last.bounds
  have hj := progression_names h step?
  rw [show first.number = first.number - 1 + 1 by omega,
    show last.number = last.number - 1 + 1 by omega] at hj
  exact kept_of_shifted rfl hj rfl (by omega) id

theorem kept_name (weekday : DayName) : (name weekday).Kept := by
  have hbounds := weekday.bounds
  have hj := progression_name weekday
  rw [show weekday.number = weekday.number - 1 + 1 by omega] at hj
  exact kept_of_shifted rfl hj rfl (by omega) id

/-- Both ends of a range move, unless it ends in a single 7. -/
theorem renumbered_days {first last : Numeral} {step? : Option Stride}
    (hseven : last.digits ≠ ['7']) :
    (days first last step?).renumbered = .ok [days first.next last.next step?] := by
  unfold renumbered
  simp only
  rw [if_neg fun h => hseven h.1, if_neg hseven]

/-- A range that ends before 7. -/
theorem kept_days {first last : Numeral} {step? : Option Stride} (h : first.value ≤ last.value)
    (hlast : last.value ≤ 6) : (days first last step?).Kept := by
  have hseven : last.digits ≠ ['7'] := by
    intro heq
    have hvalue : last.value = 7 := Numeral.value_eq heq
    omega
  have hj : (days first.next last.next step?).item.progression .weekday = _ :=
    progression_days (by simp) step?
  rw [Numeral.value_next, Numeral.value_next, Nat.mod_eq_of_lt (by omega),
    Nat.mod_eq_of_lt (by omega), if_pos (by omega)] at hj
  refine kept_of_shifted (renumbered_days hseven) hj rfl hlast ?_
  cases step? with
  | none => exact id
  | some step => exact fun hwraps => by have := hwraps.2; omega

/-! ## Ranges that end in 7 -/

variable {first last : Numeral} {step? : Option Stride}

/-- In a range up to 7, the numbers below 7 are days of their own, and 7 is Sunday. -/
theorem means_days (hlast : last.value = 7) {weekday : Nat} (hweekday : weekday < 7) :
    (days first last step?).Means weekday ↔
      (first.value ≤ weekday ∧ (weekday - first.value) % strideOf step? = 0) ∨
        weekday = 0 ∧ (7 - first.value) % strideOf step? = 0 := by
  have hfirst := first.value_le
  simp only [Means, numbers, Progression.contains_iff, hlast]
  constructor
  · rintro ⟨n, ⟨hlow, hhigh, hstep⟩, rfl⟩
    by_cases hn : n = 7
    · exact .inr (by subst hn; exact ⟨rfl, hstep⟩)
    · rw [Nat.mod_eq_of_lt (by omega)]
      exact .inl ⟨hlow, hstep⟩
  · rintro (⟨hlow, hstep⟩ | ⟨rfl, hstep⟩)
    · exact ⟨weekday, ⟨hlow, by omega, hstep⟩, Nat.mod_eq_of_lt hweekday⟩
    · exact ⟨7, ⟨hfirst, Nat.le_refl 7, hstep⟩, rfl⟩

/-- A range that ends in a single 7, and does not begin with a single 0. -/
theorem kept_cut_iff (hlast : last.value = 7) (hseven : last.digits = ['7'])
    (hzero : first.digits ≠ ['0']) :
    (days first last step?).Kept ↔ (days first last step?).Faithful := by
  have hfirst := first.value_le
  have hcut : last.digits = ['7'] ∧ first.digits ≠ ['0'] := ⟨hseven, hzero⟩
  cases step? with
  | some step =>
    have hrejected : ¬ (days first last (some step)).Accepted := by
      rintro ⟨js, hjs, -⟩
      rw [renumbered, if_pos hcut] at hjs
      cases hjs
    simp [Kept, hrejected, Faithful, hseven, WrapsStepped, hlast, hzero, Nat.pos_iff_ne_zero]
  | none =>
    have hi : (days first last none).renumbered =
        .ok [days first.next (.single 7 (Nat.le_refl 7)) none, day (.single 1 (by omega)) none] := by
      rw [renumbered, if_pos hcut]
    have hrange : (days first.next (.single 7 (Nat.le_refl 7)) none).item.progression .weekday = _ :=
      progression_days (by simp) none
    rw [Numeral.value_next, Numeral.value_single, if_pos (by omega)] at hrange
    have hsunday := progression_day (n := .single 1 (by omega)) (by simp) none
    rw [Numeral.value_single] at hsunday
    have haccepted : (days first last none).Accepted := by
      simp [accepted_iff hi, hrange, hsunday]
    have hfires : ∀ weekday < 7, (days first last none).FiresOn weekday ↔
        first.value % 7 ≤ weekday ∨ weekday = 0 := by
      intro weekday hweekday
      simp only [firesOn_iff hi, List.mem_cons, List.not_mem_nil, or_false, exists_eq_or_imp,
        exists_eq_left, hrange, hsunday, Except.ok.injEq, exists_eq_left', Progression.contains_iff,
        strideOf, Nat.mod_one, and_true, Option.isSome_none, Bool.false_eq_true, if_false]
      omega
    constructor
    · intro h
      have hmonday := (hfires 1 (by omega)).symm.trans (h.2 haccepted 1 (by omega))
      rw [means_days hlast (by omega)] at hmonday
      simp only [strideOf, Nat.mod_one, and_true] at hmonday
      exact fun _ => iff_of_true hseven fun heq => by omega
    · intro h
      have hne := (h hlast).mp hseven
      refine ⟨iff_of_true haccepted id, fun _ weekday hweekday => ?_⟩
      rw [hfires weekday hweekday, means_days hlast hweekday]
      simp only [strideOf, Nat.mod_one, and_true]
      omega

/-- A range that ends in a single 7, and begins with a single 0. -/
theorem kept_whole (hlast : last.value = 7) (hseven : last.digits = ['7'])
    (hzero : first.digits = ['0']) : (days first last step?).Kept := by
  have hfirst : first.value = 0 := Numeral.value_eq hzero
  have hi : (days first last step?).renumbered = .ok [days first.next last step?] := by
    unfold renumbered
    simp only
    rw [if_neg fun h => h.2 hzero, if_pos hseven]
  have hj : (days first.next last step?).item.progression .weekday = _ :=
    progression_days (by simp) step?
  rw [Numeral.value_next, hfirst, hlast, if_pos (by decide)] at hj
  obtain ⟨haccepted, hfires⟩ := read_of_renumbered hi hj
  have hwraps : ¬ (days first last step?).WrapsStepped := by
    cases step? with
    | none => exact id
    | some step => exact fun h => Nat.lt_irrefl 0 (hfirst ▸ h.1)
  refine ⟨iff_of_true haccepted hwraps, fun _ weekday hweekday => ?_⟩
  rw [hfires, means_days hlast hweekday, Progression.contains_iff, hfirst]
  simp only [Nat.add_sub_cancel, Nat.sub_zero]
  constructor
  · exact fun h => .inl ⟨Nat.zero_le _, by simpa using h.2.2⟩
  · rintro (⟨-, h⟩ | ⟨rfl, -⟩)
    · exact ⟨by omega, by omega, by simpa using h⟩
    · exact ⟨Nat.le_refl 1, by decide, Nat.zero_mod _⟩

/-- Where both ends of a range become Sunday, it fires on Sundays only. -/
theorem read_of_sundays (step? : Option Stride) (hlast : last.value = 7)
    (hseven : last.digits ≠ ['7']) (hsunday : first.value % 7 = 0) :
    (days first last step?).Accepted ∧
      ∀ weekday, (days first last step?).FiresOn weekday ↔ weekday = 0 := by
  have hj : (days first.next last.next step?).item.progression .weekday = _ :=
    progression_days (by simp) step?
  rw [Numeral.value_next, Numeral.value_next, hlast, hsunday, if_pos (by decide)] at hj
  obtain ⟨haccepted, hfires⟩ := read_of_renumbered (renumbered_days hseven) hj
  refine ⟨haccepted, fun weekday => ?_⟩
  rw [hfires, Progression.contains_iff]
  simp only [Nat.add_sub_cancel]
  constructor
  · exact fun h => by omega
  · rintro rfl
    exact ⟨Nat.le_refl 1, Nat.le_refl 1, Nat.zero_mod _⟩

/-- Without a step, only the range from 7 to 7 means Sundays only. -/
theorem kept_sundays_iff (hlast : last.value = 7) (hseven : last.digits ≠ ['7'])
    (hsunday : first.value % 7 = 0) : (days first last none).Kept ↔ first.value = 7 := by
  have hfirst := first.value_le
  obtain ⟨haccepted, hfires⟩ := read_of_sundays none hlast hseven hsunday
  simp only [kept_iff_of_accepted haccepted id, hfires]
  constructor
  · intro h
    have hmonday := h 1 (by omega)
    rw [means_days hlast (by omega)] at hmonday
    simp only [strideOf, Nat.mod_one, and_true] at hmonday
    omega
  · intro heq weekday hweekday
    rw [means_days hlast hweekday]
    simp only [strideOf, Nat.mod_one, and_true]
    omega

/-- From 0 on, only steps of 7 lead from Sunday to Sunday. -/
theorem kept_stepped_sundays_iff {step : Stride} (hlast : last.value = 7)
    (hseven : last.digits ≠ ['7']) (hzero : first.value = 0) :
    (days first last (some step)).Kept ↔ step.value = 7 := by
  have hpos := step.positive
  obtain ⟨haccepted, hfires⟩ := read_of_sundays (some step) hlast hseven (by rw [hzero])
  have hwraps : ¬ (days first last (some step)).WrapsStepped :=
    fun h => Nat.lt_irrefl 0 (hzero ▸ h.1)
  simp only [kept_iff_of_accepted haccepted hwraps, hfires]
  constructor
  · intro h
    refine Nat.le_antisymm step.value_le (Nat.not_lt.mp fun hlt => ?_)
    have hmeans := (h step.value hlt).trans (means_days hlast hlt)
    rw [hzero] at hmeans
    have hstep : step.value = 0 := hmeans.mpr (.inl ⟨Nat.zero_le _, Nat.mod_self _⟩)
    omega
  · intro heq weekday hweekday
    rw [means_days hlast hweekday, hzero]
    simp only [strideOf, heq]
    omega

/-- A range that ends in a 7 with zeros in front. -/
theorem kept_padded_iff (hlast : last.value = 7) (hseven : last.digits ≠ ['7']) :
    (days first last step?).Kept ↔ (days first last step?).Faithful := by
  have hfirst := first.value_le
  by_cases hsunday : first.value % 7 = 0
  · -- Both ends become Sunday.
    cases step? with
    | none =>
      rw [kept_sundays_iff hlast hseven hsunday]
      simp [Faithful, hlast, hseven]
    | some step =>
      have hends : first.value = 0 ∨ first.value = 7 := by omega
      rcases hends with hzero | hlate
      · rw [kept_stepped_sundays_iff hlast hseven hzero]
        simp [Faithful, hlast, hseven, hzero]
      · have hwraps : (days first last (some step)).WrapsStepped := ⟨by omega, hlast⟩
        have haccepted := (read_of_sundays (some step) hlast hseven hsunday).1
        have hkept : ¬ (days first last (some step)).Kept := fun h => h.1.mp haccepted hwraps
        simp [hkept, Faithful, hlast, hseven, hlate]
  · -- The range would go backwards, so it is refused.
    have hj : (days first.next last.next step?).item.progression .weekday = _ :=
      progression_days (by simp) step?
    rw [Numeral.value_next, Numeral.value_next, hlast, if_neg (by omega)] at hj
    have hrejected : ¬ (days first last step?).Accepted := by
      simp [accepted_iff (renumbered_days hseven), hj]
    have hne : first.value ≠ 0 ∧ first.value ≠ 7 := by omega
    cases step? with
    | none => simp [Kept, hrejected, Faithful, WrapsStepped, hlast, hseven, hne]
    | some step =>
      simp [Kept, hrejected, Faithful, WrapsStepped, hlast, hseven, hne, Nat.pos_iff_ne_zero]

/-- **An item keeps its days exactly if it is faithful.** -/
theorem kept_iff (hi : i.Standard) : i.Kept ↔ i.Faithful := by
  cases i with
  | every mark h step? =>
    exact iff_of_true
      (kept_of_shifted rfl (progression_every mark h step?) rfl (Nat.le_refl 6) id) trivial
  | day n step? => exact iff_of_true (kept_day hi) trivial
  | days first last step? =>
    by_cases hlast : last.value = 7
    · by_cases hseven : last.digits = ['7']
      · by_cases hzero : first.digits = ['0']
        · refine iff_of_true (kept_whole hlast hseven hzero) ?_
          have hfirst : first.value = 0 := Numeral.value_eq hzero
          cases step? <;> simp [Faithful, hseven, hfirst, hzero]
        · exact kept_cut_iff hlast hseven hzero
      · exact kept_padded_iff hlast hseven
    · have hle := last.value_le
      refine iff_of_true (kept_days hi (by omega)) ?_
      cases step? with
      | none => exact fun hseven => absurd hseven hlast
      | some step => exact fun hseven => absurd hseven hlast
  | name weekday => exact iff_of_true (kept_name weekday) trivial
  | names first last step? => exact iff_of_true (kept_names hi) trivial

end WeekdayItem

end CredentialRelay.Cron
