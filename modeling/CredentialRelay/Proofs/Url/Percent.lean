import CredentialRelay.Proofs.Text.ByteOrder
import CredentialRelay.Url.Parse

/-!
# Percent-encoding is undone

What was encoded can be decoded, unless the text had percent signs of its own: these are not encoded,
so what stands behind them is taken for a byte. Of texts without percent signs, no two are encoded
alike, and none becomes a dot segment that was not one before.

Results:
* `percentDecode_percentEncode`: decoding undoes encoding.
* `percentEncode_inj`: texts without percent signs that are encoded alike are equal.
* `isDoubleDot_percentEncode`, `isSingleDot_percentEncode`: no dot segment comes of encoding.
-/

namespace CredentialRelay.Url

open Text.Utf8

/-! ## Bytes -/

theorem encode_append (cs ds : List Char) : encode (cs ++ ds) = encode cs ++ encode ds :=
  List.flatMap_append

/-- A character of ASCII is one byte. -/
theorem encode_cons_ascii {c : Char} (h : c.toNat < 0x80) (cs : List Char) :
    encode (c :: cs) = UInt8.ofNat c.toNat :: encode cs := by
  have hbytes : String.utf8EncodeChar c = [UInt8.ofNat c.toNat] := by
    have hval : c.val.toNat ≤ 127 := Nat.le_of_lt_succ h
    unfold String.utf8EncodeChar
    exact if_pos hval
  unfold encode
  rw [List.flatMap_cons, hbytes]
  rfl

theorem hexByte?_upperHexDigit {n : Nat} (h : n < 16) :
    hexByte? (UInt8.ofNat (upperHexDigit n).toNat) = some n := by
  have hall : ∀ n ∈ List.range 16, hexByte? (UInt8.ofNat (upperHexDigit n).toNat) = some n := by
    decide
  exact hall n (List.mem_range.mpr h)

/-- An encoded byte is decoded to itself. -/
theorem percentDecode_percentByte (b : UInt8) (rest : List UInt8) :
    percentDecode (encode (percentByte b) ++ rest) = b :: percentDecode rest := by
  have hb := b.toNat_lt
  have hhigh : b.toNat / 16 < 16 := by omega
  have hlow : b.toNat % 16 < 16 := Nat.mod_lt _ (by decide)
  unfold percentByte
  rw [encode_cons_ascii (by decide), encode_cons_ascii (upperHexDigit_ascii hhigh),
    encode_cons_ascii (upperHexDigit_ascii hlow)]
  show percentDecode (37 :: _ :: _ :: rest) = _
  rw [percentDecode, hexByte?_upperHexDigit hhigh, hexByte?_upperHexDigit hlow]
  simp only
  rw [Nat.div_add_mod, UInt8.ofNat_toNat]

theorem percentDecode_flatMap_percentByte (rest : List UInt8) : ∀ bytes : List UInt8,
    percentDecode (encode (bytes.flatMap percentByte) ++ rest) = bytes ++ percentDecode rest
  | [] => rfl
  | b :: bytes => by
    rw [List.flatMap_cons, encode_append, List.append_assoc, percentDecode_percentByte,
      percentDecode_flatMap_percentByte rest bytes]
    rfl

/-- A byte that is no percent sign stands for itself. -/
theorem percentDecode_cons {b : UInt8} (h : b ≠ 37) (rest : List UInt8) :
    percentDecode (b :: rest) = b :: percentDecode rest := by
  rw [percentDecode]
  rintro a d others rfl
  exact absurd rfl h

/-! ## Texts -/

/-- **Decoding undoes encoding**, of texts without percent signs. -/
theorem percentDecode_percentEncode {set : Char → Bool} : ∀ {cs : List Char}, '%' ∉ cs →
    percentDecodeChars (percentEncode set cs) = encode cs
  | [], _ => rfl
  | c :: cs, h => by
    obtain ⟨hc, hcs⟩ := List.ne_and_not_mem_of_not_mem_cons h
    have ih : percentDecode (encode (percentEncode set cs)) = encode cs :=
      percentDecode_percentEncode hcs
    have hsplit : percentEncode set (c :: cs) = percentEncodeChar set c ++ percentEncode set cs :=
      List.flatMap_cons
    show percentDecode (encode _) = _
    rw [hsplit, encode_append]
    unfold percentEncodeChar
    split
    · next hkept =>
      have hne : UInt8.ofNat c.toNat ≠ 37 := by
        intro heq
        have hnat : c.toNat = 37 := by
          have hlt : c.toNat < 256 := Nat.lt_of_lt_of_le hkept.1 (by decide)
          rw [← UInt8.toNat_ofNat_of_lt' hlt, heq]
          rfl
        exact hc (Char.toNat_inj.mp hnat).symm
      rw [encode_cons_ascii hkept.1, encode_cons_ascii hkept.1]
      show percentDecode (_ :: encode _) = _
      rw [percentDecode_cons hne, ih]
    · rw [percentDecode_flatMap_percentByte, ih]
      rfl

/-- **Texts without percent signs that are encoded alike are equal.** -/
theorem percentEncode_inj {set : Char → Bool} {cs ds : List Char} (hcs : '%' ∉ cs) (hds : '%' ∉ ds)
    (h : percentEncode set cs = percentEncode set ds) : cs = ds := by
  have hdecoded := congrArg percentDecodeChars h
  rw [percentDecode_percentEncode hcs, percentDecode_percentEncode hds] at hdecoded
  exact encode_inj hdecoded

/-! ## Dot segments -/

/-- A character is its own lower case, or an upper-case letter. -/
theorem eq_or_of_toLower {c d : Char} (h : c.toLower = d) :
    c = d ∨ 0x41 ≤ c.toNat ∧ c.toNat + 32 = d.toNat := by
  unfold Char.toLower at h
  split at h
  · next hupper =>
    have hlow : 0x41 ≤ c.toNat := UInt32.le_iff_toNat_le.mp hupper.1
    have hhigh : c.toNat ≤ 0x5a := UInt32.le_iff_toNat_le.mp hupper.2
    refine .inr ⟨hlow, ?_⟩
    rw [← h]
    show c.val.toNat + 32 = (c.val + 32).toNat
    have hval : c.val.toNat = c.toNat := rfl
    rw [UInt32.toNat_add, hval]
    have h32 : (32 : UInt32).toNat = 32 := rfl
    omega
  · exact .inl h

theorem eq_of_toLower {c d : Char} (h : c.toLower = d) (hd : d.toNat < 0x61) : c = d := by
  rcases eq_or_of_toLower h with heq | ⟨hlow, hsum⟩
  · exact heq
  · omega

theorem eq_e_of_toLower {c : Char} (h : c.toLower = 'e') : c = 'e' ∨ c = 'E' := by
  rcases eq_or_of_toLower h with heq | ⟨-, hsum⟩
  · exact .inl heq
  · refine .inr (Char.toNat_inj.mp ?_)
    have he : 'e'.toNat = 101 := rfl
    have hE : 'E'.toNat = 69 := rfl
    omega

/-- However a dot is written, it is decoded to one. -/
theorem percentDecode_of_isSingleDot {segment : List Char} (h : isSingleDot segment = true) :
    percentDecodeChars segment = encode ['.'] := by
  unfold isSingleDot at h
  simp only [List.contains_cons, List.contains_nil, Bool.or_false, Bool.or_eq_true,
    beq_iff_eq, List.map_eq_cons_iff, List.map_eq_nil_iff] at h
  rcases h with ⟨c, _, rfl, hc, rfl⟩ | ⟨c, _, rfl, hc, d, _, rfl, hd, e, _, rfl, he, rfl⟩
  · rw [eq_of_toLower hc (by decide)]
    decide
  · rw [eq_of_toLower hc (by decide), eq_of_toLower hd (by decide)]
    rcases eq_e_of_toLower he with rfl | rfl <;> decide

theorem percentDecode_of_isDoubleDot {segment : List Char} (h : isDoubleDot segment = true) :
    percentDecodeChars segment = encode ['.', '.'] := by
  unfold isDoubleDot at h
  simp only [List.contains_cons, List.contains_nil, Bool.or_false, Bool.or_eq_true,
    beq_iff_eq, List.map_eq_cons_iff, List.map_eq_nil_iff] at h
  rcases h with ⟨a, _, rfl, ha, b, _, rfl, hb, rfl⟩ |
    ⟨a, _, rfl, ha, b, _, rfl, hb, c, _, rfl, hc, d, _, rfl, hd, rfl⟩ |
    ⟨a, _, rfl, ha, b, _, rfl, hb, c, _, rfl, hc, d, _, rfl, hd, rfl⟩ |
    ⟨a, _, rfl, ha, b, _, rfl, hb, c, _, rfl, hc, d, _, rfl, hd, e, _, rfl, he, f, _, rfl, hf, rfl⟩
  · rw [eq_of_toLower ha (by decide), eq_of_toLower hb (by decide)]
    decide
  · rw [eq_of_toLower ha (by decide), eq_of_toLower hb (by decide), eq_of_toLower hc (by decide)]
    rcases eq_e_of_toLower hd with rfl | rfl <;> decide
  · rw [eq_of_toLower ha (by decide), eq_of_toLower hb (by decide), eq_of_toLower hd (by decide)]
    rcases eq_e_of_toLower hc with rfl | rfl <;> decide
  · rw [eq_of_toLower ha (by decide), eq_of_toLower hb (by decide), eq_of_toLower hd (by decide),
      eq_of_toLower he (by decide)]
    rcases eq_e_of_toLower hc with rfl | rfl <;> rcases eq_e_of_toLower hf with rfl | rfl <;> decide

/-- **No dot segment comes of encoding.** -/
theorem isSingleDot_percentEncode {set : Char → Bool} {cs : List Char} (h : '%' ∉ cs)
    (hcs : cs ≠ ['.']) : isSingleDot (percentEncode set cs) = false := by
  refine Bool.eq_false_iff.mpr fun hdot => hcs (encode_inj ?_)
  rw [← percentDecode_of_isSingleDot hdot, percentDecode_percentEncode h]

theorem isDoubleDot_percentEncode {set : Char → Bool} {cs : List Char} (h : '%' ∉ cs)
    (hcs : cs ≠ ['.', '.']) : isDoubleDot (percentEncode set cs) = false := by
  refine Bool.eq_false_iff.mpr fun hdots => hcs (encode_inj ?_)
  rw [← percentDecode_of_isDoubleDot hdots, percentDecode_percentEncode h]

end CredentialRelay.Url
