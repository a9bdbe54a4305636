import CredentialRelay.Dictionary

/-!
# Where an entry stands

The entries of a dictionary are in ascending order of their keys, so whatever becomes of one key,
the other entries stay where they are: those with lesser keys before it, those with greater keys
after it.

* `Dictionary.erase`: the dictionary without a key.
* `Dictionary.assign`: the dictionary with a choice for a key, which is a value or nothing.

Results:
* `Dictionary.entries_insert`, `Dictionary.entries_erase`: the entries around a key.
* `Dictionary.entries_assign`: the entries around a key are the same whatever is chosen for it.
* `Dictionary.mapValues_insert`: a value may be changed before it is inserted or after.
* `Dictionary.get?_erase`: without a key, the other keys have their values.
* `Dictionary.get?_ofList`: of two entries with one key the later one counts.
* `Dictionary.exists_split_of_get?`: the entry of a key stands once among all entries.
* `Dictionary.ext_get?`: dictionaries with the same values are equal.
-/

namespace CredentialRelay.Dictionary

variable {α : Type}

/-- The dictionary without a key. -/
def erase (d : Dictionary α) (key : String) : Dictionary α :=
  ⟨d.entries.filter fun entry => entry.1 ≠ key, d.ascending.filter _⟩

/-- The dictionary with a choice for a key: its new value, or none. -/
def assign (d : Dictionary α) (key : String) : Option α → Dictionary α
  | some value => d.insert key value
  | none => d.erase key

/-- The entries with lesser keys. -/
def below (d : Dictionary α) (key : String) : List (String × α) :=
  d.entries.filter fun entry => entry.1 < key

/-- The entries with greater keys. -/
def above (d : Dictionary α) (key : String) : List (String × α) :=
  d.entries.filter fun entry => key < entry.1

theorem mem_below {d : Dictionary α} {key : String} {entry : String × α} :
    entry ∈ d.below key ↔ entry ∈ d.entries ∧ entry.1 < key := by
  simp [below]

theorem mem_above {d : Dictionary α} {key : String} {entry : String × α} :
    entry ∈ d.above key ↔ entry ∈ d.entries ∧ key < entry.1 := by
  simp [above]

/-- The key itself is neither below nor above. -/
theorem ne_of_mem_below_above {d : Dictionary α} {key : String} {entry : String × α}
    (h : entry ∈ d.below key ++ d.above key) : entry.1 ≠ key := by
  rcases List.mem_append.mp h with h | h
  · exact String.ne_of_lt (mem_below.mp h).2
  · exact (String.ne_of_lt (mem_above.mp h).2).symm

/-- What is below the first entry of an ascending list is below all. -/
theorem lt_of_lt_first {key : String} {first : String × α} {rest : List (String × α)}
    (h : key < first.1) (hfirst : ∀ entry ∈ rest, first.1 < entry.1) :
    ∀ entry ∈ first :: rest, key < entry.1 := by
  intro entry he
  rcases List.mem_cons.mp he with rfl | he
  · exact h
  · exact String.lt_trans h (hfirst entry he)

/-- Entries with greater keys are all above. -/
theorem filter_of_lt {key : String} {entries : List (String × α)}
    (h : ∀ entry ∈ entries, key < entry.1) :
    (entries.filter fun entry => entry.1 < key) = [] ∧
      (entries.filter fun entry => key < entry.1) = entries ∧
      (entries.filter fun entry => entry.1 ≠ key) = entries := by
  refine ⟨List.filter_eq_nil_iff.mpr fun entry he => ?_, List.filter_eq_self.mpr fun entry he => ?_,
    List.filter_eq_self.mpr fun entry he => ?_⟩
  · exact fun hlt => String.lt_asymm (h entry he) (of_decide_eq_true hlt)
  · exact decide_eq_true (h entry he)
  · exact decide_eq_true (String.ne_of_lt (h entry he)).symm

theorem insertEntry_eq (key : String) (value : α) {entries : List (String × α)}
    (h : entries.Pairwise fun a b => a.1 < b.1) :
    insertEntry key value entries =
      (entries.filter fun entry => entry.1 < key) ++
        (key, value) :: entries.filter fun entry => key < entry.1 := by
  induction entries with
  | nil => rfl
  | cons first rest ih =>
    obtain ⟨hfirst, hrest⟩ := List.pairwise_cons.mp h
    unfold insertEntry
    by_cases hlt : key < first.1
    · obtain ⟨hbelow, habove, -⟩ := filter_of_lt (lt_of_lt_first hlt hfirst)
      rw [if_pos hlt, hbelow, habove, List.nil_append]
    · by_cases hgt : first.1 < key
      · simp only [hlt, hgt, ih hrest, List.filter_cons, if_true, if_false, decide_true,
          decide_false, Bool.false_eq_true, List.cons_append]
      · have hkey : first.1 = key :=
          String.le_antisymm (String.not_lt.mp hlt) (String.not_lt.mp hgt)
        have hall : ∀ entry ∈ rest, key < entry.1 := hkey ▸ hfirst
        obtain ⟨hbelow, habove, -⟩ := filter_of_lt hall
        simp only [hkey, List.filter_cons, String.lt_irrefl, hbelow, habove, if_false,
          decide_false, Bool.false_eq_true, List.nil_append]

theorem filter_ne_eq (key : String) {entries : List (String × α)}
    (h : entries.Pairwise fun a b => a.1 < b.1) :
    (entries.filter fun entry => entry.1 ≠ key) =
      (entries.filter fun entry => entry.1 < key) ++ entries.filter fun entry => key < entry.1 := by
  induction entries with
  | nil => rfl
  | cons first rest ih =>
    obtain ⟨hfirst, hrest⟩ := List.pairwise_cons.mp h
    by_cases hgt : first.1 < key
    · simp only [hgt, String.ne_of_lt hgt, String.lt_asymm hgt, ih hrest, List.filter_cons,
        ne_eq, not_false_eq_true, if_true, if_false, decide_true, decide_false,
        Bool.false_eq_true, List.cons_append]
    · by_cases hlt : key < first.1
      · obtain ⟨hbelow, habove, hne⟩ := filter_of_lt (lt_of_lt_first hlt hfirst)
        rw [hbelow, habove, hne, List.nil_append]
      · have hkey : first.1 = key :=
          String.le_antisymm (String.not_lt.mp hlt) (String.not_lt.mp hgt)
        simp only [hkey, ih hrest, List.filter_cons, String.lt_irrefl, ne_eq, not_true_eq_false,
          if_false, decide_false, Bool.false_eq_true]

/-- A new entry stands between those with lesser and those with greater keys. -/
theorem entries_insert (d : Dictionary α) (key : String) (value : α) :
    (d.insert key value).entries = d.below key ++ (key, value) :: d.above key :=
  insertEntry_eq key value d.ascending

/-- Without a key, there are the entries with lesser and those with greater keys. -/
theorem entries_erase (d : Dictionary α) (key : String) :
    (d.erase key).entries = d.below key ++ d.above key :=
  filter_ne_eq key d.ascending

/-- **The entries around a key are the same** whatever is chosen for it. -/
theorem entries_assign (d : Dictionary α) (key : String) (choice : Option α) :
    (d.assign key choice).entries =
      d.below key ++ (choice.map (Prod.mk key)).toList ++ d.above key := by
  cases choice with
  | none =>
    rw [assign, entries_erase]
    simp
  | some value =>
    rw [assign, entries_insert]
    simp

/-- **Without a key, the other keys have their values.** -/
theorem get?_erase (d : Dictionary α) (key other : String) :
    (d.erase key).get? other = if other = key then none else d.get? other := by
  have hlookup (entries : List (String × α)) :
      (entries.filter fun entry => entry.1 ≠ key).lookup other =
        if other = key then none else entries.lookup other := by
    induction entries with
    | nil => simp
    | cons entry entries ih =>
      obtain ⟨k, v⟩ := entry
      by_cases hk : k = key
      · subst hk
        rw [List.filter_cons_of_neg (by simp), ih]
        by_cases hother : other = k
        · simp [hother]
        · simp [hother, List.lookup_cons, beq_false_of_ne hother]
      · rw [List.filter_cons_of_pos (by simpa using hk), List.lookup_cons, List.lookup_cons, ih]
        by_cases hother : other = k
        · simp [hother, hk]
        · simp [beq_false_of_ne hother]
  exact hlookup d.entries

theorem map_insertEntry {β : Type} (f : α → β) (key : String) (value : α)
    (entries : List (String × α)) :
    (insertEntry key value entries).map (fun entry => (entry.1, f entry.2)) =
      insertEntry key (f value) (entries.map fun entry => (entry.1, f entry.2)) := by
  induction entries with
  | nil => rfl
  | cons first rest ih =>
    simp only [insertEntry, List.map_cons]
    split
    · rfl
    · split
      · rw [List.map_cons, ih]
      · rfl

/-- **A value may be changed before it is inserted or after.** -/
theorem mapValues_insert {β : Type} (f : α → β) (d : Dictionary α) (key : String) (value : α) :
    (d.insert key value).mapValues f = (d.mapValues f).insert key (f value) :=
  ext (map_insertEntry f key value d.entries)

theorem lookup_mapValues {β : Type} (f : α → β) (key : String) : ∀ entries : List (String × α),
    (entries.map fun entry => (entry.1, f entry.2)).lookup key = (entries.lookup key).map f
  | [] => rfl
  | (k, v) :: entries => by
    rw [List.map_cons, List.lookup_cons, List.lookup_cons, lookup_mapValues f key entries]
    cases key == k <;> rfl

theorem get?_mapValues {β : Type} (f : α → β) (d : Dictionary α) (key : String) :
    (d.mapValues f).get? key = (d.get? key).map f :=
  lookup_mapValues f key d.entries

theorem keys_mapValues {β : Type} (f : α → β) (d : Dictionary α) : (d.mapValues f).keys = d.keys :=
  List.map_map

/-- **Of two entries with one key the later one counts.** -/
theorem get?_ofList (entries : List (String × α)) (key : String) :
    (ofList entries).get? key = entries.reverse.lookup key := by
  have hinserted (d : Dictionary α) :
      (entries.foldl (fun d entry => d.insert entry.1 entry.2) d).get? key =
        (entries.reverse.lookup key).or (d.get? key) := by
    induction entries generalizing d with
    | nil => rfl
    | cons entry entries ih =>
      rw [List.foldl_cons, ih, get?_insert, List.reverse_cons, List.lookup_append, Option.or_assoc]
      obtain ⟨other, value⟩ := entry
      by_cases h : key = other
      · simp [h]
      · have hne : (key == other) = false := by simpa using h
        simp [List.lookup_cons, h, hne]
  rw [ofList, hinserted, get?_empty, Option.or_none]

/-- An entry is a key with its value. -/
theorem mem_entries_iff {d : Dictionary α} {key : String} {value : α} :
    (key, value) ∈ d.entries ↔ d.get? key = some value := by
  unfold get?
  rw [List.lookup_eq_some_iff]
  constructor
  · intro h
    obtain ⟨before, after, hsplit⟩ := List.append_of_mem h
    have hascending := d.ascending
    rw [hsplit, List.pairwise_append] at hascending
    refine ⟨before, after, hsplit, fun entry he => ?_⟩
    have hlt : entry.1 < key := hascending.2.2 entry he _ List.mem_cons_self
    simpa using (String.ne_of_lt hlt).symm
  · rintro ⟨before, after, hsplit, -⟩
    rw [hsplit]
    exact List.mem_append_right _ List.mem_cons_self

/-- The keys are those that have a value. -/
theorem mem_keys_iff {d : Dictionary α} {key : String} :
    key ∈ d.keys ↔ ∃ value, d.get? key = some value := by
  unfold keys
  rw [List.mem_map]
  constructor
  · rintro ⟨⟨k, value⟩, hentry, rfl⟩
    exact ⟨value, mem_entries_iff.mp hentry⟩
  · rintro ⟨value, h⟩
    exact ⟨(key, value), mem_entries_iff.mpr h, rfl⟩

/-- **The entry of a key stands once** among all entries. -/
theorem exists_split_of_get? {d : Dictionary α} {key : String} {value : α}
    (h : d.get? key = some value) :
    ∃ before after, d.entries = before ++ (key, value) :: after ∧
      ∀ entry ∈ before ++ after, entry.1 ≠ key := by
  obtain ⟨before, after, hsplit, hbefore⟩ := List.lookup_eq_some_iff.mp h
  have hascending := d.ascending
  rw [hsplit] at hascending
  have hafter := (List.pairwise_cons.mp (List.pairwise_append.mp hascending).2.1).1
  refine ⟨before, after, hsplit, fun entry he => ?_⟩
  rcases List.mem_append.mp he with he | he
  · exact fun heq => absurd heq.symm (bne_iff_ne.mp (hbefore entry he))
  · exact (String.ne_of_lt (hafter entry he)).symm

/-- **Dictionaries with the same values are equal.** -/
theorem ext_get? {d e : Dictionary α} (h : ∀ key, d.get? key = e.get? key) : d = e := by
  have hnodup (d : Dictionary α) : d.entries.Nodup :=
    d.ascending.imp fun hlt heq => String.ne_of_lt hlt (congrArg Prod.fst heq)
  have hperm : d.entries.Perm e.entries :=
    (List.perm_ext_iff_of_nodup (hnodup d) (hnodup e)).mpr fun (key, value) => by
      rw [mem_entries_iff, mem_entries_iff, h key]
  refine ext (hperm.eq_of_pairwise (fun a b _ _ hab hba => ?_) d.ascending e.ascending)
  exact absurd hba (String.lt_asymm hab)

end CredentialRelay.Dictionary
