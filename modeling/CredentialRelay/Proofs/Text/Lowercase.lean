import CredentialRelay.Text.Blank
import CredentialRelay.Text.Lowercase

/-!
# Letter case within ASCII

In lower case, a character of ASCII stays one. Of the other characters only two become letters of
ASCII: the Kelvin sign a `k`, and the dotted capital I an `i` with a dot. So a text of ASCII without
these two letters is the lower-case form of just the texts that differ from it in the case of their
letters.

Results:
* `lowercaseChar_of_not_ascii`: what becomes of a character outside ASCII.
* `lowercaseFrom_eq_iff`: which texts have a form without these two letters.
-/

namespace CredentialRelay.Text

/-- Outside ASCII, the runs of the table lead to characters outside ASCII, or from one character to
the letter `k`. -/
theorem lowercaseRuns_targets : ∀ run ∈ lowercaseRuns, run.last < 0x80 ∨
    (run.first = run.last ∧ run.first + run.offset = 'k'.toNat) ∨
      (0x80 ≤ run.first + run.offset ∧ (run.last + run.offset < 0xd800 ∨
        0xdfff < run.first + run.offset ∧ run.last + run.offset < 0x110000)) := by
  decide +kernel

theorem toNat_ofNat {n : Nat} (h : n.isValidChar) : (Char.ofNat n).toNat = n := by
  unfold Char.ofNat
  rw [dif_pos h]
  rfl

/-- **What becomes of a character outside ASCII** is outside ASCII too, or the letter `k`. -/
theorem lowercaseChar_of_not_ascii {c : Char} (h : 0x80 ≤ c.toNat) :
    0x80 ≤ (lowercaseChar c).toNat ∨ lowercaseChar c = 'k' := by
  unfold lowercaseChar
  rw [if_neg (Nat.not_lt.mpr h)]
  split
  · next run hrun =>
    have hin := List.find?_some hrun
    simp only [Bool.and_eq_true, decide_eq_true_eq] at hin
    obtain ⟨⟨hfirst, hlast⟩, -⟩ := hin
    rcases lowercaseRuns_targets run (List.mem_of_find?_eq_some hrun) with hascii | hkelvin | hvalid
    · omega
    · have htarget : (c.toNat + run.offset).toNat = 'k'.toNat := by omega
      rw [htarget]
      exact .inr rfl
    · have hchar : (c.toNat + run.offset).toNat.isValidChar := by
        rcases hvalid.2 with hlow | ⟨hhigh, hlimit⟩
        · exact .inl (by omega)
        · exact .inr ⟨by omega, by omega⟩
      rw [toNat_ofNat hchar]
      exact .inl (by omega)
  · exact .inl h

/-- The lower-case form of a text that begins with a character of ASCII. -/
theorem lowercaseFrom_cons_of_ascii {c : Char} (h : c.toNat < 0x80) (before cs : List Char) :
    lowercaseFrom before (c :: cs) = c.toLower :: lowercaseFrom (c :: before) cs := by
  have hne {d : Char} (hd : 0x80 ≤ d.toNat) : c ≠ d := by
    rintro rfl
    exact absurd hd (Nat.not_le.mpr h)
  rw [lowercaseFrom, if_neg (hne (by decide)), if_neg (hne (by decide)), lowercaseChar, if_pos h]
  rfl

/-- A character outside ASCII stays as it is if only the letters of ASCII change their case. -/
theorem toLower_of_not_ascii {c : Char} (h : 0x80 ≤ c.toNat) : c.toLower = c := by
  unfold Char.toLower
  refine dif_neg fun hrange => ?_
  have hle : c.toNat ≤ 'Z'.toNat := UInt32.le_iff_toNat_le.mp hrange.2
  exact absurd (Nat.le_trans h hle) (by decide)

/-- **A text of ASCII without the letters `i` and `k`** is the lower-case form of the texts that
differ from it in the case of letters of ASCII only. -/
theorem lowercaseFrom_eq_iff : ∀ {ds : List Char}, (∀ d ∈ ds, d.toNat < 0x80 ∧ d ≠ 'i' ∧ d ≠ 'k') →
    ∀ {before cs : List Char}, lowercaseFrom before cs = ds ↔ cs.map Char.toLower = ds
  | ds, _, _, [] => Iff.rfl
  | ds, h, before, c :: cs => by
    by_cases hascii : c.toNat < 0x80
    · rw [lowercaseFrom_cons_of_ascii hascii, List.map_cons]
      cases ds with
      | nil => exact iff_of_false (List.cons_ne_nil _ _) (List.cons_ne_nil _ _)
      | cons d ds =>
        rw [List.cons.injEq, List.cons.injEq,
          lowercaseFrom_eq_iff fun d hd => h d (List.mem_cons_of_mem _ hd)]
    · -- A character outside ASCII leaves something that the text does not have.
      have houtside : 0x80 ≤ c.toNat := Nat.not_lt.mp hascii
      have hlower : ¬ ∀ d ∈ (if c = 'İ' then ['i', '\u0307']
          else if c = 'Σ' then [if meetsCased before && !meetsCased cs then 'ς' else 'σ']
          else [lowercaseChar c]), d.toNat < 0x80 ∧ d ≠ 'i' ∧ d ≠ 'k' := by
        intro hall
        split at hall
        · exact (hall 'i' List.mem_cons_self).2.1 rfl
        split at hall
        · have hsigma := (hall _ List.mem_cons_self).1
          split at hsigma <;> exact absurd hsigma (by decide)
        · obtain ⟨hlt, -, hkelvin⟩ := hall _ List.mem_cons_self
          rcases lowercaseChar_of_not_ascii houtside with hge | heq
          · exact absurd hge (Nat.not_le.mpr hlt)
          · exact hkelvin heq
      refine iff_of_false (fun heq => hlower fun d hd => h d ?_) fun heq => ?_
      · rw [← heq, lowercaseFrom]
        exact List.mem_append_left _ hd
      · have hmem : c ∈ ds := by
          rw [← heq, List.map_cons, toLower_of_not_ascii houtside]
          exact List.mem_cons_self
        exact hascii (h c hmem).1

/-- No letter case makes a difference between blanks and other characters. -/
theorem isBlank_toLower (c : Char) : isBlank c.toLower = isBlank c := by
  by_cases hascii : c.toNat < 0x80
  · have hall : ∀ n < 0x80, isBlank (Char.ofNat n).toLower = isBlank (Char.ofNat n) := by
      decide +kernel
    have hc := hall c.toNat hascii
    rwa [Char.ofNat_toNat] at hc
  · rw [toLower_of_not_ascii (Nat.not_lt.mp hascii)]

end CredentialRelay.Text
