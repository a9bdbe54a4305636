import CredentialRelay.Text.Blank

/-!
# Fields of a text

The fields of a text are what stands between its blanks. How many blanks stand there, of which kind,
and whether there are some at the ends, does not matter.

Results:
* `fields_trim`: blanks at the ends belong to no field.
* `fields_intercalate`: fields that are joined by spaces are found again.
* `head?_trim`: a text without blanks at its ends begins as its first field does.
* `toList_trim_append`: what is trimmed of a text that begins with something that is not blank.
* `length_fields_append_le`: two texts behind each other have no more fields than both.
-/

namespace CredentialRelay.Text

variable {p : Char → Bool}

/-! ## Runs -/

/-- Characters outside the class go on with the run being read. -/
theorem runsOutside_append {run : List Char} (h : ∀ c ∈ run, p c = false) (rest : List Char) :
    ∀ current : List Char,
      runsOutside p current (run ++ rest) = runsOutside p (run.reverse ++ current) rest := by
  induction run with
  | nil => exact fun _ => rfl
  | cons c run ih =>
    intro current
    rw [List.cons_append, runsOutside, if_neg (by simp [h c]), ih fun d hd => h d (by simp [hd])]
    simp

/-- A character of the class ends the run being read. -/
theorem runsOutside_cons {c : Char} (h : p c = true) (current rest : List Char) :
    runsOutside p current (c :: rest) =
      (if current.isEmpty then [] else [current.reverse]) ++ runsOutside p [] rest := by
  rw [runsOutside, if_pos h]
  split <;> rfl

/-- A character outside the class goes on with the run being read. -/
theorem runsOutside_cons_of_not {c : Char} (h : p c = false) (current rest : List Char) :
    runsOutside p current (c :: rest) = runsOutside p (c :: current) rest := by
  have hrun : ∀ d ∈ [c], p d = false := by simpa using h
  exact runsOutside_append hrun rest current

/-- A run that has begun is finished before any other. -/
theorem runsOutside_of_ne_nil {current : List Char} (h : current ≠ []) :
    ∀ cs : List Char, ∃ more,
      runsOutside p current cs = (current.reverse ++ cs.takeWhile fun c => !p c) :: more
  | [] => ⟨[], by simp [runsOutside, h]⟩
  | c :: cs => by
    cases hc : p c with
    | true => exact ⟨runsOutside p [] cs, by simp [runsOutside_cons hc, h, hc]⟩
    | false =>
      obtain ⟨more, hmore⟩ := runsOutside_of_ne_nil (List.cons_ne_nil c current) cs
      exact ⟨more, by simp [runsOutside_cons_of_not hc, hc, hmore]⟩

/-- A run has characters, and all of them are outside the class. -/
theorem mem_runsOutside {run : List Char} : ∀ {current cs : List Char},
    (∀ c ∈ current, p c = false) → run ∈ runsOutside p current cs →
    run ≠ [] ∧ ∀ c ∈ run, p c = false
  | current, [], hcurrent, h => by
    rw [runsOutside] at h
    split at h
    · cases h
    · next hne =>
      obtain rfl := List.mem_singleton.mp h
      exact ⟨by simpa using hne, fun c hc => hcurrent c (List.mem_reverse.mp hc)⟩
  | current, c :: cs, hcurrent, h => by
    cases hc : p c with
    | false =>
      rw [runsOutside_cons_of_not hc] at h
      exact mem_runsOutside (List.forall_mem_cons.mpr ⟨hc, hcurrent⟩) h
    | true =>
      rw [runsOutside_cons hc] at h
      rcases List.mem_append.mp h with hfirst | hmore
      · split at hfirst
        · cases hfirst
        · next hne =>
          obtain rfl := List.mem_singleton.mp hfirst
          exact ⟨by simpa using hne, fun c hc => hcurrent c (List.mem_reverse.mp hc)⟩
      · exact mem_runsOutside (List.forall_mem_nil _) hmore

theorem runsOutside_dropWhile : ∀ cs : List Char,
    runsOutside p [] (cs.dropWhile p) = runsOutside p [] cs
  | [] => rfl
  | c :: cs => by
    cases hc : p c with
    | true =>
      rw [List.dropWhile_cons_of_pos hc, runsOutside_dropWhile cs, runsOutside_cons hc]
      rfl
    | false => rw [List.dropWhile_cons_of_neg (by simp [hc])]

theorem runsOutside_dropEndWhile : ∀ (current cs : List Char),
    runsOutside p current (dropEndWhile p cs) = runsOutside p current cs
  | _, [] => rfl
  | current, c :: cs => by
    have ih := fun current => runsOutside_dropEndWhile current cs
    rw [dropEndWhile]
    cases hrest : dropEndWhile p cs with
    | cons d rest =>
      rw [hrest] at ih
      cases hc : p c with
      | true => rw [runsOutside_cons hc, runsOutside_cons hc, ih]
      | false => simp [runsOutside_cons_of_not hc, ih]
    | nil =>
      rw [hrest] at ih
      cases hc : p c with
      | true =>
        simp only [if_true]
        rw [runsOutside_cons hc, ← ih]
        simp [runsOutside]
      | false =>
        simp only [Bool.false_eq_true, if_false]
        rw [runsOutside_cons_of_not hc, runsOutside_cons_of_not hc, ih]

/-- How many runs there are does not depend on what the run being read began with. -/
theorem length_runsOutside_eq : ∀ (cs : List Char) {current current' : List Char},
    current ≠ [] → current' ≠ [] →
    (runsOutside p current cs).length = (runsOutside p current' cs).length
  | [], _, _, h, h' => by simp [runsOutside, h, h']
  | c :: cs, current, current', h, h' => by
    cases hc : p c with
    | true => simp [runsOutside_cons hc, h, h']
    | false =>
      rw [runsOutside_cons_of_not hc, runsOutside_cons_of_not hc]
      exact length_runsOutside_eq cs (List.cons_ne_nil c current) (List.cons_ne_nil c current')

/-- Two texts behind each other have no more runs than both. -/
theorem length_runsOutside_append_le (ds : List Char) : ∀ (current cs : List Char),
    (runsOutside p current (cs ++ ds)).length ≤
      (runsOutside p current cs).length + (runsOutside p [] ds).length
  | [], [] => Nat.le_add_left _ _
  | c :: current, [] => by
    cases ds with
    | nil => exact Nat.le_add_right _ _
    | cons d ds =>
      cases hd : p d with
      | true =>
        rw [List.nil_append, runsOutside_cons hd, runsOutside_cons hd, List.length_append]
        exact Nat.le_refl _
      | false =>
        rw [List.nil_append, runsOutside_cons_of_not hd, runsOutside_cons_of_not hd,
          length_runsOutside_eq ds (List.cons_ne_nil d (c :: current)) (List.cons_ne_nil d [])]
        exact Nat.le_add_left _ _
  | current, c :: cs => by
    cases hc : p c with
    | true =>
      rw [List.cons_append, runsOutside_cons hc, runsOutside_cons hc, List.length_append,
        List.length_append, Nat.add_assoc]
      exact Nat.add_le_add_left (length_runsOutside_append_le ds [] cs) _
    | false =>
      rw [List.cons_append, runsOutside_cons_of_not hc, runsOutside_cons_of_not hc]
      exact length_runsOutside_append_le ds (c :: current) cs

/-! ## Trimming -/

theorem dropEndWhile_cons_of_not {c : Char} (h : p c = false) (cs : List Char) :
    dropEndWhile p (c :: cs) = c :: dropEndWhile p cs := by
  rw [dropEndWhile]
  cases dropEndWhile p cs with
  | nil => simp [h]
  | cons d rest => rfl

/-- Characters outside the class are not trimmed, and none behind them is trimmed with them. -/
theorem dropEndWhile_append_of_not (ds : List Char) : ∀ {cs : List Char},
    (∀ c ∈ cs, p c = false) → dropEndWhile p (cs ++ ds) = cs ++ dropEndWhile p ds
  | [], _ => rfl
  | c :: cs, h => by
    rw [List.cons_append, dropEndWhile_cons_of_not (h c List.mem_cons_self),
      dropEndWhile_append_of_not ds fun d hd => h d (List.mem_cons_of_mem c hd), List.cons_append]

theorem dropEndWhile_dropEndWhile : ∀ cs : List Char,
    dropEndWhile p (dropEndWhile p cs) = dropEndWhile p cs
  | [] => rfl
  | c :: cs => by
    have ih := dropEndWhile_dropEndWhile cs
    cases hrest : dropEndWhile p cs with
    | nil =>
      have hc : dropEndWhile p (c :: cs) = if p c then [] else [c] := by rw [dropEndWhile, hrest]
      rw [hc]
      split
      · rfl
      · next hnot => rw [dropEndWhile_cons_of_not (Bool.eq_false_iff.mpr hnot)]; rfl
    | cons d rest =>
      have hc : dropEndWhile p (c :: cs) = c :: d :: rest := by rw [dropEndWhile, hrest]
      rw [hrest] at ih
      rw [hc, dropEndWhile, ih]

/-- What is trimmed at the end first is trimmed at both ends all the same. -/
theorem trimBy_dropEndWhile : ∀ cs : List Char, trimBy p (dropEndWhile p cs) = trimBy p cs
  | [] => rfl
  | c :: cs => by
    cases hc : p c with
    | false =>
      have hdrop (ds : List Char) : (c :: ds).dropWhile p = c :: ds :=
        List.dropWhile_cons_of_neg (by simp [hc])
      rw [dropEndWhile_cons_of_not hc, trimBy, trimBy, hdrop, hdrop, ← dropEndWhile_cons_of_not hc,
        dropEndWhile_dropEndWhile]
    | true =>
      have hskip (ds : List Char) : trimBy p (c :: ds) = trimBy p ds := by
        rw [trimBy, List.dropWhile_cons_of_pos hc, trimBy]
      rw [hskip]
      cases hrest : dropEndWhile p cs with
      | nil =>
        rw [dropEndWhile, hrest, if_pos hc]
        exact (trimBy_eq_nil_iff.mpr (dropEndWhile_eq_nil_iff.mp hrest)).symm
      | cons d rest =>
        have hdrop : dropEndWhile p (c :: cs) = c :: d :: rest := by rw [dropEndWhile, hrest]
        rw [hdrop, hskip, ← hrest, trimBy_dropEndWhile cs]

/-- **A text that begins with something that is not blank** is trimmed behind that only. -/
theorem toList_trim_append (start text : String) (hne : start.toList ≠ [])
    (h : start.toList.any isBlank = false) :
    (trim (start ++ text)).toList = start.toList ++ dropEndWhile isBlank text.toList := by
  have hstart : ∀ c ∈ start.toList, isBlank c = false :=
    fun c hc => Bool.eq_false_iff.mpr (List.any_eq_false.mp h c hc)
  obtain ⟨c, cs, hcs⟩ := List.exists_cons_of_ne_nil hne
  have hc : isBlank c = false := hstart c (hcs ▸ List.mem_cons_self)
  have hdrop : (start.toList ++ text.toList).dropWhile isBlank = start.toList ++ text.toList := by
    rw [hcs, List.cons_append]
    exact List.dropWhile_cons_of_neg (by simp [hc])
  unfold trim trimBy
  rw [String.toList_ofList, String.toList_append, hdrop, dropEndWhile_append_of_not _ hstart]

/-! ## Fields -/

/-- A field has characters, and none of them is blank. -/
theorem mem_fields {text field : String} (h : field ∈ fields text) :
    field.toList ≠ [] ∧ ∀ c ∈ field.toList, isBlank c = false := by
  obtain ⟨run, hrun, rfl⟩ := List.mem_map.mp h
  rw [String.toList_ofList]
  exact mem_runsOutside (List.forall_mem_nil _) hrun

/-- Blanks at the ends belong to no field. -/
theorem fields_trim (text : String) : fields (trim text) = fields text := by
  unfold fields trim trimBy
  rw [String.toList_ofList, runsOutside_dropEndWhile, runsOutside_dropWhile]

/-- A text without blanks at its ends begins as its first field does. -/
theorem head?_trim {text first : String} {more : List String}
    (h : fields text = first :: more) : (trim text).toList.head? = first.toList.head? := by
  have hfields := (fields_trim text).trans h
  unfold fields at hfields
  have hbegin : ∀ c ∈ (trim text).toList.head?, isBlank c = false := by
    unfold trim trimBy
    rw [String.toList_ofList]
    intro c hc
    cases hdrop : text.toList.dropWhile isBlank with
    | nil =>
      rw [hdrop] at hc
      cases hc
    | cons d rest =>
      have hd : isBlank d = false := by
        have hne : text.toList.dropWhile isBlank ≠ [] := by simp [hdrop]
        have hhead := List.head_dropWhile_not isBlank hne
        simpa [hdrop] using hhead
      rw [hdrop, dropEndWhile] at hc
      split at hc
      · simp only [hd, Bool.false_eq_true, if_false, List.head?_cons, Option.mem_def,
          Option.some.injEq] at hc
        exact hc ▸ hd
      · simp only [List.head?_cons, Option.mem_def, Option.some.injEq] at hc
        exact hc ▸ hd
  cases hchars : (trim text).toList with
  | nil =>
    rw [hchars] at hfields
    cases hfields
  | cons c cs =>
    have hc := hbegin c (by rw [hchars]; rfl)
    obtain ⟨others, hothers⟩ :=
      runsOutside_of_ne_nil (p := isBlank) (List.cons_ne_nil c []) cs
    rw [hchars, runsOutside_cons_of_not hc, hothers, List.map_cons] at hfields
    rw [← (List.cons.inj hfields).1]
    simp

/-- Fields that are joined by spaces are found again. -/
theorem runsOutside_intercalate {c : Char} (hc : p c = true) : ∀ {runs : List (List Char)},
    (∀ run ∈ runs, run ≠ [] ∧ ∀ d ∈ run, p d = false) →
    runsOutside p [] ([c].intercalate runs) = runs
  | [], _ => rfl
  | [run], h => by
    have hrun := h run List.mem_cons_self
    have happend := runsOutside_append hrun.2 [] []
    rw [List.append_nil, List.append_nil] at happend
    simp [List.intercalate, happend, runsOutside, hrun.1]
  | run :: next :: runs, h => by
    have hrun := h run List.mem_cons_self
    have ih := runsOutside_intercalate hc fun r hr => h r (List.mem_cons_of_mem run hr)
    have hjoin : [c].intercalate (run :: next :: runs) =
        run ++ c :: [c].intercalate (next :: runs) := by
      simp [List.intercalate, List.intersperse]
    rw [hjoin, runsOutside_append hrun.2, runsOutside_cons hc, ih]
    simp [hrun.1]

/-- **Fields that are joined by spaces are found again.** -/
theorem fields_intercalate {texts : List String}
    (h : ∀ text ∈ texts, text.toList ≠ [] ∧ ∀ c ∈ text.toList, isBlank c = false) :
    fields (" ".intercalate texts) = texts := by
  unfold fields
  rw [String.toList_intercalate, show " ".toList = [' '] from rfl,
    runsOutside_intercalate rfl]
  · simp
  · intro run hrun
    obtain ⟨text, htext, rfl⟩ := List.mem_map.mp hrun
    exact h text htext

/-- **Two texts behind each other have no more fields than both.** -/
theorem length_fields_append_le (a b : String) :
    (fields (a ++ b)).length ≤ (fields a).length + (fields b).length := by
  unfold fields
  rw [List.length_map, List.length_map, List.length_map, String.toList_append]
  exact length_runsOutside_append_le b.toList [] a.toList

/-- A text without blanks has one field at most. -/
theorem length_fields_le_one {text : String} (h : ∀ c ∈ text.toList, isBlank c = false) :
    (fields text).length ≤ 1 := by
  have hrun := runsOutside_append h [] []
  rw [List.append_nil, List.append_nil] at hrun
  unfold fields
  rw [hrun, List.length_map, runsOutside]
  split
  · exact Nat.zero_le 1
  · exact Nat.le_refl 1

end CredentialRelay.Text
