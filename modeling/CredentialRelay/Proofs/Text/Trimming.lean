import CredentialRelay.Proofs.Text.Fields

/-!
# What trimming does not see

A text that is trimmed comes out the same with more of the characters that are trimmed, at the end
or at both ends. A text is such an extension of what is left of it, so trimming twice is trimming
once.

* `Trails p text long`: the long text is the text with characters of a class behind it.
* `Wraps p text long`: it is the text with characters of the class at its two ends.

Results:
* `Trails.trimEndSlashes_eq`, `Wraps.trimSlashes_eq`, `Wraps.trim_eq`: what is left is the same.
* `trails_trimEndSlashes`, `wraps_trimSlashes`: a text is an extension of what is left of it.
-/

namespace CredentialRelay.Text

variable {p : Char → Bool} {text long : String}

/-! ## Trimmed lists -/

theorem dropEndWhile_append (p : Char → Bool) : ∀ cs : List Char,
    ∃ rest, cs = dropEndWhile p cs ++ rest ∧ ∀ c ∈ rest, p c = true
  | [] => ⟨[], rfl, nofun⟩
  | c :: cs => by
    obtain ⟨rest, hcs, hrest⟩ := dropEndWhile_append p cs
    unfold dropEndWhile
    split
    · next hnil =>
      rw [hnil] at hcs
      split
      · next hc =>
        refine ⟨c :: rest, congrArg (c :: ·) hcs, fun d hd => ?_⟩
        rcases List.mem_cons.mp hd with rfl | hd
        · exact hc
        · exact hrest d hd
      · exact ⟨rest, congrArg (c :: ·) hcs, hrest⟩
    · exact ⟨rest, congrArg (c :: ·) hcs, hrest⟩

/-- Characters of the class do not matter at the end. -/
theorem dropEndWhile_append_of_all {after : List Char} (h : ∀ c ∈ after, p c = true) :
    ∀ cs : List Char, dropEndWhile p (cs ++ after) = dropEndWhile p cs
  | [] => dropEndWhile_eq_nil_iff.mpr (List.all_eq_true.mpr h)
  | c :: cs => by
    rw [List.cons_append, dropEndWhile, dropEndWhile_append_of_all h cs, dropEndWhile]

/-- Nor do they at the two ends. -/
theorem trimBy_append_of_all {before after : List Char} (hbefore : ∀ c ∈ before, p c = true)
    (hafter : ∀ c ∈ after, p c = true) (cs : List Char) :
    trimBy p (before ++ cs ++ after) = trimBy p cs :=
  calc trimBy p (before ++ cs ++ after)
    _ = trimBy p (cs ++ after) := by
      unfold trimBy
      rw [List.append_assoc, List.dropWhile_append_of_pos hbefore]
    _ = trimBy p (dropEndWhile p (cs ++ after)) := (trimBy_dropEndWhile _).symm
    _ = trimBy p (dropEndWhile p cs) := by rw [dropEndWhile_append_of_all hafter]
    _ = trimBy p cs := trimBy_dropEndWhile cs

/-! ## Extended texts -/

/-- The long text is the text with characters of a class behind it. -/
def Trails (p : Char → Bool) (text long : String) : Prop :=
  ∃ after : List Char, (∀ c ∈ after, p c = true) ∧ long.toList = text.toList ++ after

/-- The long text is the text with characters of a class at its two ends. -/
def Wraps (p : Char → Bool) (text long : String) : Prop :=
  ∃ before after : List Char, (∀ c ∈ before, p c = true) ∧ (∀ c ∈ after, p c = true) ∧
    long.toList = before ++ text.toList ++ after

theorem Wraps.refl (p : Char → Bool) (text : String) : Wraps p text text :=
  ⟨[], [], nofun, nofun, by simp⟩

theorem Trails.trimEndSlashes_eq (h : Trails (· == '/') text long) :
    trimEndSlashes long = trimEndSlashes text := by
  obtain ⟨after, hafter, hlong⟩ := h
  unfold trimEndSlashes
  rw [hlong, dropEndWhile_append_of_all hafter]

theorem Wraps.trimSlashes_eq (h : Wraps (· == '/') text long) :
    trimSlashes long = trimSlashes text := by
  obtain ⟨before, after, hbefore, hafter, hlong⟩ := h
  unfold trimSlashes
  rw [hlong, trimBy_append_of_all hbefore hafter]

theorem Wraps.trim_eq (h : Wraps isBlank text long) : trim long = trim text := by
  obtain ⟨before, after, hbefore, hafter, hlong⟩ := h
  unfold trim
  rw [hlong, trimBy_append_of_all hbefore hafter]

/-- A text is an extension of what is left of it. -/
theorem trails_trimEndSlashes (text : String) : Trails (· == '/') (trimEndSlashes text) text := by
  obtain ⟨after, htext, hafter⟩ := dropEndWhile_append (· == '/') text.toList
  exact ⟨after, hafter, by rw [trimEndSlashes, String.toList_ofList, ← htext]⟩

theorem wraps_trimSlashes (text : String) : Wraps (· == '/') (trimSlashes text) text := by
  obtain ⟨after, htext, hafter⟩ :=
    dropEndWhile_append (· == '/') (text.toList.dropWhile (· == '/'))
  refine ⟨text.toList.takeWhile (· == '/'), after,
    fun c hc => List.all_eq_true.mp List.all_takeWhile c hc, hafter, ?_⟩
  rw [trimSlashes, trimBy, String.toList_ofList, List.append_assoc, ← htext,
    List.takeWhile_append_dropWhile]

end CredentialRelay.Text
