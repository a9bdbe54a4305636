import CredentialRelay.Text.Utf8

/-!
# The order of texts and of their bytes

Texts are ordered by their characters. In UTF-8 that is the order of their bytes, so it does not
matter whether keys are compared as texts or as bytes: a greater character has a greater first byte,
or the same one and a greater byte behind it.

Results:
* `utf8EncodeChar_append_lt`: bytes that begin with a lesser character are less.
* `encode_lt_iff`: the order of texts is the order of their bytes.
* `encode_inj`: texts with the same bytes are equal.
-/

namespace CredentialRelay.Text.Utf8

/-- Bytes are compared by the first one in which they differ. -/
theorem cons_ofNat_lt {m n : Nat} {x y : List UInt8} (hm : m < 256) (hn : n < 256)
    (h : m < n ∨ m = n ∧ x < y) : UInt8.ofNat m :: x < UInt8.ofNat n :: y := by
  rw [List.cons_lt_cons_iff]
  refine h.imp (fun hlt => ?_) (fun ⟨heq, hrest⟩ => ⟨congrArg UInt8.ofNat heq, hrest⟩)
  rw [UInt8.lt_iff_toNat_lt, UInt8.toNat_ofNat_of_lt' hm, UInt8.toNat_ofNat_of_lt' hn]
  exact hlt

/-- The last byte of a character holds its last six bits. -/
theorem last_lt {v w : Nat} {x y : List UInt8} (h : v % 64 < w % 64) :
    UInt8.ofNat (v % 64 + 128) :: x < UInt8.ofNat (w % 64 + 128) :: y :=
  cons_ofNat_lt (by omega) (by omega) (.inl (by omega))

/-- The last two bytes of a character hold its last twelve bits. -/
theorem last_two_lt {v w : Nat} {x y : List UInt8} (h : v % 4096 < w % 4096) :
    UInt8.ofNat (v / 64 % 64 + 128) :: UInt8.ofNat (v % 64 + 128) :: x <
      UInt8.ofNat (w / 64 % 64 + 128) :: UInt8.ofNat (w % 64 + 128) :: y := by
  refine cons_ofNat_lt (by omega) (by omega) ?_
  by_cases hfirst : v / 64 % 64 < w / 64 % 64
  · exact .inl (by omega)
  · exact .inr ⟨by omega, last_lt (by omega)⟩

/-- The last three bytes of a character hold its last eighteen bits. -/
theorem last_three_lt {v w : Nat} {x y : List UInt8} (h : v % 262144 < w % 262144) :
    UInt8.ofNat (v / 4096 % 64 + 128) :: UInt8.ofNat (v / 64 % 64 + 128) ::
        UInt8.ofNat (v % 64 + 128) :: x <
      UInt8.ofNat (w / 4096 % 64 + 128) :: UInt8.ofNat (w / 64 % 64 + 128) ::
        UInt8.ofNat (w % 64 + 128) :: y := by
  refine cons_ofNat_lt (by omega) (by omega) ?_
  by_cases hfirst : v / 4096 % 64 < w / 4096 % 64
  · exact .inl (by omega)
  · exact .inr ⟨by omega, last_two_lt (by omega)⟩

/-- **Bytes that begin with a lesser character are less.** -/
theorem utf8EncodeChar_append_lt {c d : Char} (h : c < d) (x y : List UInt8) :
    String.utf8EncodeChar c ++ x < String.utf8EncodeChar d ++ y := by
  have hlt : c.val.toNat < d.val.toNat := UInt32.lt_iff_toNat_lt.mp (Char.lt_def.mp h)
  have hd : d.val.toNat < 0x110000 := by
    have hvalid := d.valid
    unfold UInt32.isValidChar Nat.isValidChar at hvalid
    omega
  unfold String.utf8EncodeChar
  simp only
  generalize c.val.toNat = v at hlt ⊢
  generalize d.val.toNat = w at hlt hd ⊢
  -- A character with more bytes has a greater first byte. With as many bytes, the bits decide.
  by_cases hw1 : w ≤ 127
  · rw [if_pos (by omega), if_pos hw1]
    exact cons_ofNat_lt (by omega) (by omega) (.inl hlt)
  by_cases hw2 : w ≤ 2047
  · rw [if_neg hw1, if_pos hw2]
    by_cases hv1 : v ≤ 127
    · rw [if_pos hv1]
      exact cons_ofNat_lt (by omega) (by omega) (.inl (by omega))
    · rw [if_neg hv1, if_pos (by omega)]
      refine cons_ofNat_lt (by omega) (by omega) ?_
      by_cases hfirst : v / 64 % 32 < w / 64 % 32
      · exact .inl (by omega)
      · exact .inr ⟨by omega, last_lt (by omega)⟩
  by_cases hw3 : w ≤ 65535
  · rw [if_neg hw1, if_neg hw2, if_pos hw3]
    by_cases hv1 : v ≤ 127
    · rw [if_pos hv1]
      exact cons_ofNat_lt (by omega) (by omega) (.inl (by omega))
    by_cases hv2 : v ≤ 2047
    · rw [if_neg hv1, if_pos hv2]
      exact cons_ofNat_lt (by omega) (by omega) (.inl (by omega))
    · rw [if_neg hv1, if_neg hv2, if_pos (by omega)]
      refine cons_ofNat_lt (by omega) (by omega) ?_
      by_cases hfirst : v / 4096 % 16 < w / 4096 % 16
      · exact .inl (by omega)
      · exact .inr ⟨by omega, last_two_lt (by omega)⟩
  · rw [if_neg hw1, if_neg hw2, if_neg hw3]
    by_cases hv1 : v ≤ 127
    · rw [if_pos hv1]
      exact cons_ofNat_lt (by omega) (by omega) (.inl (by omega))
    by_cases hv2 : v ≤ 2047
    · rw [if_neg hv1, if_pos hv2]
      exact cons_ofNat_lt (by omega) (by omega) (.inl (by omega))
    by_cases hv3 : v ≤ 65535
    · rw [if_neg hv1, if_neg hv2, if_pos hv3]
      exact cons_ofNat_lt (by omega) (by omega) (.inl (by omega))
    · rw [if_neg hv1, if_neg hv2, if_neg hv3]
      refine cons_ofNat_lt (by omega) (by omega) ?_
      by_cases hfirst : v / 262144 % 8 < w / 262144 % 8
      · exact .inl (by omega)
      · exact .inr ⟨by omega, last_three_lt (by omega)⟩

theorem encode_lt_of_lt : ∀ {cs ds : List Char}, cs < ds → encode cs < encode ds
  | _, [], h => absurd h (List.not_lt_nil _)
  | [], d :: ds, _ => by
    have hne := String.utf8EncodeChar_ne_nil (c := d)
    obtain ⟨b, bs, hb⟩ := List.exists_cons_of_ne_nil hne
    unfold encode
    rw [List.flatMap_nil, List.flatMap_cons, hb]
    exact List.nil_lt_cons _ _
  | c :: cs, d :: ds, h => by
    unfold encode
    rw [List.flatMap_cons, List.flatMap_cons]
    rcases List.cons_lt_cons_iff.mp h with hlt | ⟨rfl, hrest⟩
    · exact utf8EncodeChar_append_lt hlt _ _
    · have ih := encode_lt_of_lt hrest
      unfold encode at ih
      generalize String.utf8EncodeChar c = bs
      induction bs with
      | nil => exact ih
      | cons b bs ihb => exact List.cons_lt_cons_iff.mpr (.inr ⟨rfl, ihb⟩)

/-- **The order of texts is the order of their bytes.** -/
theorem encode_lt_iff {s t : String} : encode s.toList < encode t.toList ↔ s < t := by
  constructor
  · intro h
    refine Classical.byContradiction fun hnot => ?_
    have hle : t ≤ s := String.not_lt.mp hnot
    by_cases heq : s = t
    · subst heq
      exact List.lt_irrefl _ h
    · have hlt : t < s := Classical.byContradiction fun hnot' =>
        heq (String.le_antisymm (String.not_lt.mp hnot') hle)
      exact List.lt_asymm h (encode_lt_of_lt (String.lt_iff.mp hlt))
  · exact fun h => encode_lt_of_lt (String.lt_iff.mp h)

/-- Texts with the same bytes are equal. -/
theorem encode_inj {cs ds : List Char} (h : encode cs = encode ds) : cs = ds := by
  have hle {cs ds : List Char} (h : encode cs = encode ds) :
      String.ofList ds ≤ String.ofList cs := by
    refine String.not_lt.mp fun hlt => ?_
    have hlt' := encode_lt_iff.mpr hlt
    rw [String.toList_ofList, String.toList_ofList, h] at hlt'
    exact List.lt_irrefl _ hlt'
  exact String.ofList_inj.mp (String.le_antisymm (hle h.symm) (hle h))

theorem encode_le_of_lt {s t : String} (h : s < t) : encode s.toList ≤ encode t.toList :=
  List.not_lt.mp (List.lt_asymm (encode_lt_iff.mpr h))

end CredentialRelay.Text.Utf8
