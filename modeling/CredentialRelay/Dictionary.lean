/-!
# Dictionaries

Finite maps from texts to values, kept in ascending order of their keys. The order is the one in
which a dictionary is shown and in which its entries are worked on, so it is part of the type:
two dictionaries with the same entries are equal.

Results:
* `Dictionary.get?_insert`: an insertion changes one key only.
* `Dictionary.get?_merge`: where two dictionaries are merged, the second one wins.
-/

namespace CredentialRelay

/-- A map from texts to values, in ascending order of its keys. -/
structure Dictionary (α : Type) where
  entries : List (String × α)
  ascending : entries.Pairwise fun a b => a.1 < b.1

namespace Dictionary

variable {α : Type}

/-- The dictionary without entries. -/
def empty : Dictionary α :=
  ⟨[], List.Pairwise.nil⟩

instance : Inhabited (Dictionary α) := ⟨empty⟩

/-- Adds an entry to a list in ascending order, in place of an entry with its key. -/
def insertEntry (key : String) (value : α) : List (String × α) → List (String × α)
  | [] => [(key, value)]
  | entry :: rest =>
    if key < entry.1 then (key, value) :: entry :: rest
    else if entry.1 < key then entry :: insertEntry key value rest
    else (key, value) :: rest

theorem mem_insertEntry {key : String} {value : α} {entry : String × α}
    {entries : List (String × α)} (h : entry ∈ insertEntry key value entries) :
    entry = (key, value) ∨ entry ∈ entries := by
  induction entries with
  | nil => simpa [insertEntry] using h
  | cons first rest ih =>
    simp only [insertEntry] at h
    split at h
    · simpa using h
    · split at h
      · rcases List.mem_cons.1 h with h | h
        · simp [h]
        · rcases ih h with h | h <;> simp [h]
      · rcases List.mem_cons.1 h with h | h <;> simp [h]

theorem pairwise_insertEntry (key : String) (value : α) {entries : List (String × α)}
    (h : entries.Pairwise fun a b => a.1 < b.1) :
    (insertEntry key value entries).Pairwise fun a b => a.1 < b.1 := by
  induction entries with
  | nil => simp [insertEntry]
  | cons first rest ih =>
    obtain ⟨hfirst, hrest⟩ := List.pairwise_cons.1 h
    simp only [insertEntry]
    split
    · next hk =>
      refine List.pairwise_cons.2 ⟨fun entry he => ?_, h⟩
      rcases List.mem_cons.1 he with rfl | he
      · exact hk
      · exact String.lt_trans hk (hfirst entry he)
    · next hk =>
      split
      · next hk' =>
        refine List.pairwise_cons.2 ⟨fun entry he => ?_, ih hrest⟩
        rcases mem_insertEntry he with rfl | he
        · exact hk'
        · exact hfirst entry he
      · next hk' =>
        have : first.1 = key :=
          String.le_antisymm (String.not_lt.1 hk) (String.not_lt.1 hk')
        exact List.pairwise_cons.2 ⟨fun entry he => this ▸ hfirst entry he, hrest⟩

/-- Adds an entry, in place of the one with its key. -/
def insert (d : Dictionary α) (key : String) (value : α) : Dictionary α :=
  ⟨insertEntry key value d.entries, pairwise_insertEntry key value d.ascending⟩

/-- The value of a key. -/
def get? (d : Dictionary α) (key : String) : Option α :=
  d.entries.lookup key

/-- The keys, in ascending order. -/
def keys (d : Dictionary α) : List String :=
  d.entries.map Prod.fst

/-- The number of entries. -/
def size (d : Dictionary α) : Nat :=
  d.entries.length

/-- The dictionary of a list of entries; of two entries with one key the later one counts. -/
def ofList (entries : List (String × α)) : Dictionary α :=
  entries.foldl (fun d entry => d.insert entry.1 entry.2) empty

/-- The entries of both; where both have a key, `other` counts. -/
def merge (d other : Dictionary α) : Dictionary α :=
  other.entries.foldl (fun d entry => d.insert entry.1 entry.2) d

/-- The dictionary with every value changed. -/
def mapValues {β : Type} (f : α → β) (d : Dictionary α) : Dictionary β :=
  ⟨d.entries.map fun entry => (entry.1, f entry.2),
    List.pairwise_map.2 d.ascending⟩

@[ext] theorem ext {d e : Dictionary α} (h : d.entries = e.entries) : d = e := by
  cases d; cases e; cases h; rfl

instance [DecidableEq α] : DecidableEq (Dictionary α) := fun d e =>
  decidable_of_iff (d.entries = e.entries) ⟨ext, fun h => h ▸ rfl⟩

/-! ## Looking up -/

@[simp] theorem get?_empty (key : String) : (empty : Dictionary α).get? key = none := rfl

theorem lookup_insertEntry (key other : String) (value : α) (entries : List (String × α)) :
    (insertEntry key value entries).lookup other =
      if other = key then some value else entries.lookup other := by
  induction entries with
  | nil =>
    by_cases h : other = key
    · simp [insertEntry, h]
    · have : (other == key) = false := by simpa using h
      simp [insertEntry, List.lookup_cons, this, h]
  | cons first rest ih =>
    obtain ⟨k, v⟩ := first
    simp only [insertEntry]
    split
    · by_cases h : other = key
      · simp [h]
      · have : (other == key) = false := by simpa using h
        simp [List.lookup_cons, this, h]
    · next hk =>
      split
      · next hk' =>
        by_cases h : other = k
        · have : other ≠ key := h ▸ String.ne_of_lt hk'
          simp [h, h ▸ this]
        · have : (other == k) = false := by simpa using h
          simp [List.lookup_cons, this, ih]
      · next hk' =>
        have hkey : k = key := String.le_antisymm (String.not_lt.1 hk) (String.not_lt.1 hk')
        by_cases h : other = key
        · simp [h]
        · have : (other == key) = false := by simpa using h
          simp [List.lookup_cons, this, h, hkey]

/-- An insertion gives its key the new value and leaves every other key alone. -/
theorem get?_insert (d : Dictionary α) (key other : String) (value : α) :
    (d.insert key value).get? other = if other = key then some value else d.get? other :=
  lookup_insertEntry key other value d.entries

theorem get?_foldl_insert (entries : List (String × α))
    (h : entries.Pairwise fun a b => a.1 < b.1) (d : Dictionary α) (key : String) :
    (entries.foldl (fun d entry => d.insert entry.1 entry.2) d).get? key =
      (entries.lookup key).or (d.get? key) := by
  induction entries generalizing d with
  | nil => rfl
  | cons first rest ih =>
    obtain ⟨hfirst, hrest⟩ := List.pairwise_cons.1 h
    rw [List.foldl_cons, ih hrest, get?_insert]
    obtain ⟨k, v⟩ := first
    by_cases hk : key = k
    · have : rest.lookup key = none := by
        refine List.lookup_eq_none_iff.2 fun entry he => ?_
        simpa [hk] using String.ne_of_lt (hfirst entry he)
      simp [hk, hk ▸ this]
    · have : (key == k) = false := by simpa using hk
      simp [List.lookup_cons, this, hk]

/-- Where two dictionaries are merged, the second one wins. -/
theorem get?_merge (d other : Dictionary α) (key : String) :
    (d.merge other).get? key = (other.get? key).or (d.get? key) :=
  get?_foldl_insert other.entries other.ascending d key

end Dictionary

/-- The attributes that are stored together: names with texts. -/
abbrev Attributes := Dictionary String

end CredentialRelay
