import CredentialRelay.Text.Split

/-!
# Pieces of a split text

The pieces between the separators of a text hold every other character of it and no separator, so
splitting a text that was put together from such pieces gives them back.

Results:
* `splitAll_append`: a text splits at a separator into the pieces of both sides.
* `splitAll_flatMap`: splitting undoes writing segments, each behind a separator.
* `splitAll_intercalate`: splitting undoes joining.
* `splitFirst_append`: the first separator is found behind a text that has none.
-/

namespace CredentialRelay.Text

/-- Splitting at a separator splits what stands on its two sides. -/
theorem splitAll_append (c : Char) (ds : List Char) :
    ∀ cs : List Char, splitAll c (cs ++ c :: ds) = splitAll c cs ++ splitAll c ds
  | [] => by
    cases h : splitAll c ds with
    | nil => exact absurd h (splitAll_ne_nil c ds)
    | cons first rest => simp [splitAll, h]
  | d :: cs => by
    rw [List.cons_append, splitAll, splitAll, splitAll_append c ds cs]
    cases h : splitAll c cs with
    | nil => exact absurd h (splitAll_ne_nil c cs)
    | cons first rest =>
      rw [List.cons_append]
      simp only
      split <;> rfl

/-- No piece holds the separator. -/
theorem not_mem_of_mem_splitAll {c : Char} : ∀ {cs piece : List Char},
    piece ∈ splitAll c cs → c ∉ piece
  | [], _, h => by
    rw [List.mem_singleton.mp h]
    exact List.not_mem_nil
  | d :: cs, piece, h => by
    have ih : ∀ p ∈ splitAll c cs, c ∉ p := fun _ => not_mem_of_mem_splitAll
    rw [splitAll] at h
    cases hs : splitAll c cs with
    | nil => exact absurd hs (splitAll_ne_nil c cs)
    | cons first rest =>
      rw [hs] at h ih
      simp only at h
      split at h
      · rcases List.mem_cons.mp h with rfl | h
        · exact List.not_mem_nil
        · exact ih piece h
      · next hd =>
        rcases List.mem_cons.mp h with rfl | h
        · intro hmem
          rcases List.mem_cons.mp hmem with rfl | hmem
          · exact hd rfl
          · exact ih first List.mem_cons_self hmem
        · exact ih piece (List.mem_cons_of_mem _ h)

/-- Every character is a separator or stands in a piece. -/
theorem exists_mem_splitAll {c d : Char} : ∀ {cs : List Char}, d ∈ cs →
    d = c ∨ ∃ piece ∈ splitAll c cs, d ∈ piece
  | e :: cs, h => by
    have ih : d ∈ cs → d = c ∨ ∃ piece ∈ splitAll c cs, d ∈ piece := exists_mem_splitAll
    rw [splitAll]
    cases hs : splitAll c cs with
    | nil => exact absurd hs (splitAll_ne_nil c cs)
    | cons first rest =>
      rw [hs] at ih
      simp only
      rcases List.mem_cons.mp h with rfl | h
      · by_cases hd : d = c
        · exact .inl hd
        · rw [if_neg hd]
          exact .inr ⟨_, List.mem_cons_self, List.mem_cons_self⟩
      · rcases ih h with hd | ⟨piece, hpiece, hd⟩
        · exact .inl hd
        · right
          split
          · exact ⟨piece, List.mem_cons_of_mem _ hpiece, hd⟩
          · rcases List.mem_cons.mp hpiece with rfl | hpiece
            · exact ⟨_, List.mem_cons_self, List.mem_cons_of_mem _ hd⟩
            · exact ⟨piece, List.mem_cons_of_mem _ hpiece, hd⟩

/-- A text without the separator belongs to the piece behind it. -/
theorem splitAll_append_of_not_mem {c : Char} {ds first : List Char} {rest : List (List Char)}
    (hd : splitAll c ds = first :: rest) : ∀ {cs : List Char}, c ∉ cs →
    splitAll c (cs ++ ds) = (cs ++ first) :: rest
  | [], _ => hd
  | d :: cs, h => by
    have hcs := splitAll_append_of_not_mem hd fun hmem => h (List.mem_cons_of_mem d hmem)
    have hne : d ≠ c := fun heq => h (heq ▸ List.mem_cons_self)
    rw [List.cons_append, splitAll, hcs]
    exact if_neg hne

/-- Splitting undoes writing segments, each behind a separator. -/
theorem splitAll_flatMap {c : Char} : ∀ {segments : List (List Char)},
    (∀ segment ∈ segments, c ∉ segment) →
    splitAll c (segments.flatMap (c :: ·)) = [] :: segments
  | [], _ => rfl
  | segment :: segments, h => by
    have ih := splitAll_flatMap fun s hs => h s (List.mem_cons_of_mem segment hs)
    have hall := splitAll_append_of_not_mem ih (h segment List.mem_cons_self)
    rw [List.flatMap_cons, List.cons_append, splitAll, hall, List.append_nil]
    exact if_pos rfl

/-- Writing segments, each behind a separator, puts one more in front than joining them. -/
theorem flatMap_eq_cons_intercalate (c : Char) : ∀ {segments : List (List Char)}, segments ≠ [] →
    segments.flatMap (c :: ·) = c :: [c].intercalate segments
  | [], h => absurd rfl h
  | [segment], _ => by simp [List.intercalate]
  | segment :: next :: segments, _ => by
    have ih := flatMap_eq_cons_intercalate c (List.cons_ne_nil next segments)
    rw [List.flatMap_cons, ih]
    simp [List.intercalate]

/-- **Splitting undoes joining.** -/
theorem splitAll_intercalate {c : Char} {segments : List (List Char)} (hne : segments ≠ [])
    (h : ∀ segment ∈ segments, c ∉ segment) :
    splitAll c ([c].intercalate segments) = segments := by
  have hflat := splitAll_flatMap h
  rw [flatMap_eq_cons_intercalate c hne] at hflat
  exact (List.cons.inj ((splitAll_append c _ []).symm.trans hflat)).2

/-- The first separator is found behind a text that has none. -/
theorem splitFirst_append {c : Char} {cs : List Char} (h : c ∉ cs) (rest : List Char) :
    splitFirst c (cs ++ c :: rest) = (cs, some rest) := by
  have hall : ∀ d ∈ cs, (d != c) = true := fun d hd => bne_iff_ne.mpr fun heq => h (heq ▸ hd)
  unfold splitFirst
  rw [List.dropWhile_append_of_pos hall, List.takeWhile_append_of_pos hall]
  simp

theorem splitFirst_of_not_mem {c : Char} {cs : List Char} (h : c ∉ cs) :
    splitFirst c cs = (cs, none) := by
  have hall : ∀ d ∈ cs, (d != c) = true := fun d hd => bne_iff_ne.mpr fun heq => h (heq ▸ hd)
  have hdrop : (cs ++ []).dropWhile (fun d => d != c) = List.dropWhile (fun d => d != c) [] :=
    List.dropWhile_append_of_pos hall
  rw [List.append_nil] at hdrop
  unfold splitFirst
  rw [hdrop]
  rfl

end CredentialRelay.Text
