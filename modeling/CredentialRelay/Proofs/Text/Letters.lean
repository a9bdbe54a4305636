/-!
# Letters

The letters of ASCII by their code points. Names and schemes consist of them, so what they are not
is what keeps the parts of a text apart.

Results:
* `isAlpha_iff`: a letter is in one of two ranges.
* `isAlpha_of_toLower`: what becomes a letter in lower case is one.
-/

namespace CredentialRelay.Text

/-- **A letter is in one of two ranges.** -/
theorem isAlpha_iff {c : Char} : c.isAlpha = true ↔
    (0x41 ≤ c.toNat ∧ c.toNat ≤ 0x5a) ∨ (0x61 ≤ c.toNat ∧ c.toNat ≤ 0x7a) := by
  show (decide ('A'.val ≤ c.val ∧ c.val ≤ 'Z'.val) ||
    (decide ('a'.val ≤ c.val) && decide (c.val ≤ 'z'.val))) = true ↔ _
  simp only [Bool.or_eq_true, Bool.and_eq_true, decide_eq_true_eq, UInt32.le_iff_toNat_le]
  rfl

theorem lt_toNat_of_isAlpha {c : Char} (h : c.isAlpha = true) : 0x40 < c.toNat := by
  rcases isAlpha_iff.mp h with h | h <;> omega

theorem toNat_lt_of_isAlpha {c : Char} (h : c.isAlpha = true) : c.toNat < 0x80 := by
  rcases isAlpha_iff.mp h with h | h <;> omega

theorem isDigit_of_isAlpha {c : Char} (h : c.isAlpha = true) : c.isDigit = false := by
  have hlt := lt_toNat_of_isAlpha h
  have hval : c.val.toNat = c.toNat := rfl
  unfold Char.isDigit
  rw [Bool.and_eq_false_iff, decide_eq_false_iff_not, decide_eq_false_iff_not]
  refine .inr fun hle => ?_
  have hle : c.val.toNat ≤ 0x39 := UInt32.le_iff_toNat_le.mp hle
  omega

/-- What becomes a letter in lower case is one. -/
theorem isAlpha_of_toLower {c : Char} (h : c.toLower.isAlpha = true) : c.isAlpha = true := by
  cases hupper : c.isUpper with
  | true =>
    show (c.isUpper || c.isLower) = true
    rw [hupper]
    rfl
  | false =>
    have hsame : c.toLower = c := by
      unfold Char.toLower
      rw [dif_neg]
      exact fun hrange => Bool.false_ne_true (hupper.symm.trans (decide_eq_true hrange))
    rwa [hsame] at h

end CredentialRelay.Text
