import CredentialRelay.Proofs.Text.Lowercase
import CredentialRelay.Text.Utf8

/-!
# Strict reading inverts writing

The strict reading of bytes knows nothing of how texts are written. It looks at a first byte, at how
many bytes have to come behind it and in which bounds they have to be. The two are tied together by
the forms that the bytes of one character can have.

* `Spells bytes value`: the bytes have one of these forms, and these are its bits.
* `IsUtf8 bytes`: there is a text that is written in these bytes.

Results:
* `piecesFrom_of_spells`: bytes of one of the forms are read as one character, whatever follows.
* `spells_encodeChar`: a character is written in one of the forms.
* `encodeChar_of_spells`: bytes of one of the forms are those of a character.
* `decode_eq_ok_iff`: bytes are read as a text exactly if it is written in these bytes.
* `decode_error_iff`: the strict reading fails exactly on bytes that no text is written in.
-/

namespace CredentialRelay.Text.Utf8

/-- A byte that may come behind the first one of a character. -/
def IsBehind (b : UInt8) : Prop :=
  0x80 ≤ b.toNat ∧ b.toNat ≤ 0xBF

/-- The forms of the bytes of one character, and their bits. A second byte is bounded more closely
behind a first one that may lead to an overlong form, a surrogate or a value above U+10FFFF. -/
inductive Spells : List UInt8 → Nat → Prop where
  | one {b : UInt8} (h : b.toNat < 0x80) : Spells [b] b.toNat
  | two {b b₁ : UInt8} (h : 0xC2 ≤ b.toNat) (h' : b.toNat < 0xE0) (h₁ : IsBehind b₁) :
    Spells [b, b₁] ((b.toNat - 0xC0) * 0x40 + (b₁.toNat - 0x80))
  | three {b b₁ b₂ : UInt8} (h : 0xE0 ≤ b.toNat) (h' : b.toNat < 0xF0) (h₁ : IsBehind b₁)
    (hlow : b.toNat = 0xE0 → 0xA0 ≤ b₁.toNat) (hhigh : b.toNat = 0xED → b₁.toNat ≤ 0x9F)
    (h₂ : IsBehind b₂) :
    Spells [b, b₁, b₂]
      (((b.toNat - 0xE0) * 0x40 + (b₁.toNat - 0x80)) * 0x40 + (b₂.toNat - 0x80))
  | four {b b₁ b₂ b₃ : UInt8} (h : 0xF0 ≤ b.toNat) (h' : b.toNat < 0xF5) (h₁ : IsBehind b₁)
    (hlow : b.toNat = 0xF0 → 0x90 ≤ b₁.toNat) (hhigh : b.toNat = 0xF4 → b₁.toNat ≤ 0x8F)
    (h₂ : IsBehind b₂) (h₃ : IsBehind b₃) :
    Spells [b, b₁, b₂, b₃]
      ((((b.toNat - 0xF0) * 0x40 + (b₁.toNat - 0x80)) * 0x40 + (b₂.toNat - 0x80)) * 0x40 +
        (b₃.toNat - 0x80))

theorem Spells.of_eq {bytes : List UInt8} {m n : Nat} (h : Spells bytes m) (heq : m = n) :
    Spells bytes n :=
  heq ▸ h

/-- Bytes that a text is written in. -/
def IsUtf8 (bytes : List UInt8) : Prop :=
  ∃ text : String, encode text.toList = bytes

/-! ## First bytes -/

variable {b : UInt8}

theorem lead_one (h : b.toNat < 0x80) : lead b = .whole (.char (Char.ofNat b.toNat)) :=
  if_pos (UInt8.lt_iff_toNat_lt.mpr h)

theorem lead_two (h : 0xC2 ≤ b.toNat) (h' : b.toNat < 0xE0) :
    lead b = .opens ⟨1, 0x80, 0xBF, b.toNat - 0xC0, 1⟩ := by
  unfold lead
  simp only [UInt8.lt_iff_toNat_lt, UInt8.reduceToNat]
  rw [if_neg (by omega), if_neg (by omega), if_pos h']

theorem lead_three (h : 0xE0 ≤ b.toNat) (h' : b.toNat < 0xF0) :
    lead b = .opens ⟨2, if b.toNat = 0xE0 then 0xA0 else 0x80,
      if b.toNat = 0xED then 0x9F else 0xBF, b.toNat - 0xE0, 1⟩ := by
  unfold lead
  simp only [UInt8.lt_iff_toNat_lt, ← UInt8.toNat_inj, UInt8.reduceToNat]
  rw [if_neg (by omega), if_neg (by omega), if_neg (by omega)]
  by_cases h0 : b.toNat = 0xE0
  · rw [if_pos h0, if_pos h0, if_neg (by omega), h0]
  by_cases hd : b.toNat = 0xED
  · rw [if_neg h0, if_neg h0, if_pos hd, if_pos hd, hd]
  · rw [if_neg h0, if_neg h0, if_neg hd, if_neg hd, if_pos h']

theorem lead_four (h : 0xF0 ≤ b.toNat) (h' : b.toNat < 0xF5) :
    lead b = .opens ⟨3, if b.toNat = 0xF0 then 0x90 else 0x80,
      if b.toNat = 0xF4 then 0x8F else 0xBF, b.toNat - 0xF0, 1⟩ := by
  unfold lead
  simp only [UInt8.lt_iff_toNat_lt, ← UInt8.toNat_inj, UInt8.reduceToNat]
  rw [if_neg (by omega), if_neg (by omega), if_neg (by omega), if_neg (by omega),
    if_neg (by omega), if_neg (by omega)]
  by_cases h0 : b.toNat = 0xF0
  · rw [if_pos h0, if_pos h0, if_neg (by omega), h0]
  by_cases h4 : b.toNat = 0xF4
  · rw [if_neg h0, if_neg h0, if_neg (by omega), if_pos h4, if_pos h4, h4]
  · rw [if_neg h0, if_neg h0, if_neg h4, if_neg h4, if_pos (by omega)]

/-- A byte that begins no character. -/
theorem lead_stray (h : 0x80 ≤ b.toNat) (h' : b.toNat < 0xC2 ∨ 0xF5 ≤ b.toNat) :
    lead b = .whole (.malformed 1) := by
  unfold lead
  simp only [UInt8.lt_iff_toNat_lt, ← UInt8.toNat_inj, UInt8.reduceToNat]
  rw [if_neg (by omega)]
  by_cases hlow : b.toNat < 0xC2
  · rw [if_pos hlow]
  · rw [if_neg hlow, if_neg (by omega), if_neg (by omega), if_neg (by omega), if_neg (by omega),
      if_neg (by omega), if_neg (by omega), if_neg (by omega)]

/-! ## Bytes behind the first one -/

variable {p : Pending} {bs : List UInt8}

theorem isBehind_iff : IsBehind b ↔ 0x80 ≤ b ∧ b ≤ 0xBF := by
  unfold IsBehind
  rw [UInt8.le_iff_toNat_le, UInt8.le_iff_toNat_le]
  exact Iff.rfl

/-- What is asked of a second byte that has a closer bound behind two first bytes. -/
theorem second_iff {m first last : Nat} {low high : UInt8} (hlow : 0x80 ≤ low)
    (hhigh : high ≤ 0xBF) :
    ((if m = first then low else 0x80) ≤ b ∧ b ≤ if m = last then high else 0xBF) ↔
      IsBehind b ∧ (m = first → low.toNat ≤ b.toNat) ∧ (m = last → b.toNat ≤ high.toNat) := by
  rw [isBehind_iff, ← UInt8.le_iff_toNat_le, ← UInt8.le_iff_toNat_le]
  constructor
  · rintro ⟨hl, hh⟩
    refine ⟨⟨?_, ?_⟩, fun h => ?_, fun h => ?_⟩
    · split at hl
      · exact UInt8.le_trans hlow hl
      · exact hl
    · split at hh
      · exact UInt8.le_trans hh hhigh
      · exact hh
    · rwa [if_pos h] at hl
    · rwa [if_pos h] at hh
  · rintro ⟨hbehind, hl, hh⟩
    constructor
    · split
      · exact hl ‹_›
      · exact hbehind.1
    · split
      · exact hh ‹_›
      · exact hbehind.2

/-- A character that is opened is read on. -/
theorem piecesFrom_opens (h : lead b = .opens p) :
    piecesFrom none (b :: bs) = piecesFrom (some p) bs := by
  rw [piecesFrom, h]

/-- The last byte of a character. -/
theorem piecesFrom_last {low high : UInt8} {value taken : Nat} (hb : low ≤ b ∧ b ≤ high) :
    piecesFrom (some ⟨1, low, high, value, taken⟩) (b :: bs) =
      .char (Char.ofNat (value * 0x40 + (b.toNat - 0x80))) :: piecesFrom none bs := by
  rw [piecesFrom, if_pos hb]
  exact if_pos (Nat.le_refl 1)

/-- A byte of a character behind which two or more are to come. -/
theorem piecesFrom_more {need value taken : Nat} {low high : UInt8} (hb : low ≤ b ∧ b ≤ high) :
    piecesFrom (some ⟨need + 2, low, high, value, taken⟩) (b :: bs) = piecesFrom
      (some ⟨need + 1, 0x80, 0xBF, value * 0x40 + (b.toNat - 0x80), taken + 1⟩) bs := by
  rw [piecesFrom, if_pos hb]
  exact if_neg (by simp)

/-! ## Reading what was written -/

/-- **Bytes of one of the forms are read as one character**, whatever follows. -/
theorem piecesFrom_of_spells {bytes : List UInt8} {value : Nat} (h : Spells bytes value)
    (rest : List UInt8) :
    piecesFrom none (bytes ++ rest) = .char (Char.ofNat value) :: piecesFrom none rest := by
  cases h with
  | one h =>
    show piecesFrom none (_ :: rest) = _
    rw [piecesFrom, lead_one h]
  | two h h' h₁ =>
    show piecesFrom none (_ :: _ :: rest) = _
    rw [piecesFrom_opens (lead_two h h'), piecesFrom_last (isBehind_iff.mp h₁)]
  | three h h' h₁ hlow hhigh h₂ =>
    show piecesFrom none (_ :: _ :: _ :: rest) = _
    rw [piecesFrom_opens (lead_three h h'),
      piecesFrom_more ((second_iff (by decide) (by decide)).mpr ⟨h₁, hlow, hhigh⟩),
      piecesFrom_last (isBehind_iff.mp h₂)]
  | four h h' h₁ hlow hhigh h₂ h₃ =>
    show piecesFrom none (_ :: _ :: _ :: _ :: rest) = _
    rw [piecesFrom_opens (lead_four h h'),
      piecesFrom_more ((second_iff (by decide) (by decide)).mpr ⟨h₁, hlow, hhigh⟩),
      piecesFrom_more (isBehind_iff.mp h₂), piecesFrom_last (isBehind_iff.mp h₃)]

/-! ## The bytes of characters -/

variable {c : Char}

theorem encodeChar_one (h : c.toNat < 0x80) :
    String.utf8EncodeChar c = [UInt8.ofNat c.toNat] :=
  if_pos (Nat.le_of_lt_succ h)

theorem encodeChar_two (h : 0x80 ≤ c.toNat) (h' : c.toNat < 0x800) :
    String.utf8EncodeChar c =
      [UInt8.ofNat (c.toNat / 64 + 0xC0), UInt8.ofNat (c.toNat % 64 + 0x80)] := by
  have hdigit : c.toNat / 64 % 32 = c.toNat / 64 := Nat.mod_eq_of_lt (by omega)
  have hencode : String.utf8EncodeChar c = if c.toNat ≤ 127 then _ else if c.toNat ≤ 2047 then
      [UInt8.ofNat (c.toNat / 64 % 32 + 0xC0), UInt8.ofNat (c.toNat % 64 + 0x80)] else _ := rfl
  rw [hencode, if_neg (by omega), if_pos (by omega), hdigit]

theorem encodeChar_three (h : 0x800 ≤ c.toNat) (h' : c.toNat < 0x10000) :
    String.utf8EncodeChar c =
      [UInt8.ofNat (c.toNat / 4096 + 0xE0), UInt8.ofNat (c.toNat / 64 % 64 + 0x80),
        UInt8.ofNat (c.toNat % 64 + 0x80)] := by
  have hdigit : c.toNat / 4096 % 16 = c.toNat / 4096 := Nat.mod_eq_of_lt (by omega)
  have hencode : String.utf8EncodeChar c = if c.toNat ≤ 127 then _ else if c.toNat ≤ 2047 then _
      else if c.toNat ≤ 65535 then
        [UInt8.ofNat (c.toNat / 4096 % 16 + 0xE0), UInt8.ofNat (c.toNat / 64 % 64 + 0x80),
          UInt8.ofNat (c.toNat % 64 + 0x80)] else _ := rfl
  rw [hencode, if_neg (by omega), if_neg (by omega), if_pos (by omega), hdigit]

/-- The values of characters. -/
theorem toNat_bounds (c : Char) : c.toNat < 0xD800 ∨ 0xDFFF < c.toNat ∧ c.toNat < 0x110000 :=
  c.valid

theorem encodeChar_four (h : 0x10000 ≤ c.toNat) :
    String.utf8EncodeChar c =
      [UInt8.ofNat (c.toNat / 262144 + 0xF0), UInt8.ofNat (c.toNat / 4096 % 64 + 0x80),
        UInt8.ofNat (c.toNat / 64 % 64 + 0x80), UInt8.ofNat (c.toNat % 64 + 0x80)] := by
  have hbounds := toNat_bounds c
  have hdigit : c.toNat / 262144 % 8 = c.toNat / 262144 := Nat.mod_eq_of_lt (by omega)
  have hencode : String.utf8EncodeChar c = if c.toNat ≤ 127 then _ else if c.toNat ≤ 2047 then _
      else if c.toNat ≤ 65535 then _ else
        [UInt8.ofNat (c.toNat / 262144 % 8 + 0xF0), UInt8.ofNat (c.toNat / 4096 % 64 + 0x80),
          UInt8.ofNat (c.toNat / 64 % 64 + 0x80), UInt8.ofNat (c.toNat % 64 + 0x80)] := rfl
  rw [hencode, if_neg (by omega), if_neg (by omega), if_neg (by omega), hdigit]

theorem toNat_ofNat_byte {n : Nat} (h : n < 256) : (UInt8.ofNat n).toNat = n :=
  UInt8.toNat_ofNat_of_lt' h

theorem isBehind_ofNat {n : Nat} (h : n < 64) : IsBehind (UInt8.ofNat (n + 0x80)) := by
  unfold IsBehind
  rw [toNat_ofNat_byte (by omega)]
  omega

/-- **A character is written in one of the forms.** -/
theorem spells_encodeChar (c : Char) : Spells (String.utf8EncodeChar c) c.toNat := by
  have hbounds := toNat_bounds c
  have hlast := toNat_ofNat_byte (n := c.toNat % 64 + 0x80) (by omega)
  have hbehind (n : Nat) : IsBehind (UInt8.ofNat (n % 64 + 0x80)) :=
    isBehind_ofNat (Nat.mod_lt n (by decide))
  by_cases h1 : c.toNat < 0x80
  · rw [encodeChar_one h1]
    have hb := toNat_ofNat_byte (n := c.toNat) (by omega)
    have hspells := Spells.one (b := UInt8.ofNat c.toNat) (by omega)
    rwa [hb] at hspells
  by_cases h2 : c.toNat < 0x800
  · rw [encodeChar_two (by omega) h2]
    have hb := toNat_ofNat_byte (n := c.toNat / 64 + 0xC0) (by omega)
    have hspells := Spells.two (b := UInt8.ofNat (c.toNat / 64 + 0xC0)) (by omega) (by omega)
      (hbehind c.toNat)
    rw [hb, hlast] at hspells
    exact hspells.of_eq (by omega)
  by_cases h3 : c.toNat < 0x10000
  · rw [encodeChar_three (by omega) h3]
    have hb := toNat_ofNat_byte (n := c.toNat / 4096 + 0xE0) (by omega)
    have hb₁ := toNat_ofNat_byte (n := c.toNat / 64 % 64 + 0x80) (by omega)
    have hspells := Spells.three (b := UInt8.ofNat (c.toNat / 4096 + 0xE0)) (by omega) (by omega)
      (hbehind (c.toNat / 64)) (by omega) (by omega) (hbehind c.toNat)
    rw [hb, hb₁, hlast] at hspells
    exact hspells.of_eq (by omega)
  · rw [encodeChar_four (by omega)]
    have hb := toNat_ofNat_byte (n := c.toNat / 262144 + 0xF0) (by omega)
    have hb₁ := toNat_ofNat_byte (n := c.toNat / 4096 % 64 + 0x80) (by omega)
    have hb₂ := toNat_ofNat_byte (n := c.toNat / 64 % 64 + 0x80) (by omega)
    have hspells := Spells.four (b := UInt8.ofNat (c.toNat / 262144 + 0xF0)) (by omega) (by omega)
      (hbehind (c.toNat / 4096)) (by omega) (by omega) (hbehind (c.toNat / 64)) (hbehind c.toNat)
    rw [hb, hb₁, hb₂, hlast] at hspells
    exact hspells.of_eq (by omega)

/-! ## Writing what was read -/

theorem ofNat_byte_eq {n : Nat} (h : n = b.toNat) : UInt8.ofNat n = b := by
  rw [h, UInt8.ofNat_toNat]

/-- **Bytes of one of the forms are those of a character.** -/
theorem encodeChar_of_spells {bytes : List UInt8} {value : Nat} (h : Spells bytes value) :
    String.utf8EncodeChar (Char.ofNat value) = bytes := by
  cases h with
  | @one b h =>
    have hc := toNat_ofNat (n := b.toNat) (.inl (by omega))
    rw [encodeChar_one (by omega), hc, UInt8.ofNat_toNat]
  | @two b b₁ h h' h₁ =>
    unfold IsBehind at h₁
    have hc := toNat_ofNat (n := (b.toNat - 0xC0) * 0x40 + (b₁.toNat - 0x80)) (.inl (by omega))
    rw [encodeChar_two (by omega) (by omega), hc, ofNat_byte_eq (b := b) (by omega),
      ofNat_byte_eq (b := b₁) (by omega)]
  | @three b b₁ b₂ h h' h₁ hlow hhigh h₂ =>
    unfold IsBehind at h₁ h₂
    have hc := toNat_ofNat
      (n := ((b.toNat - 0xE0) * 0x40 + (b₁.toNat - 0x80)) * 0x40 + (b₂.toNat - 0x80)) (by
        unfold Nat.isValidChar
        omega)
    rw [encodeChar_three (by omega) (by omega), hc, ofNat_byte_eq (b := b) (by omega),
      ofNat_byte_eq (b := b₁) (by omega), ofNat_byte_eq (b := b₂) (by omega)]
  | @four b b₁ b₂ b₃ h h' h₁ hlow hhigh h₂ h₃ =>
    unfold IsBehind at h₁ h₂ h₃
    have hc := toNat_ofNat
      (n := (((b.toNat - 0xF0) * 0x40 + (b₁.toNat - 0x80)) * 0x40 + (b₂.toNat - 0x80)) * 0x40 +
        (b₃.toNat - 0x80)) (by
        unfold Nat.isValidChar
        omega)
    rw [encodeChar_four (by omega), hc, ofNat_byte_eq (b := b) (by omega),
      ofNat_byte_eq (b := b₁) (by omega), ofNat_byte_eq (b := b₂) (by omega),
      ofNat_byte_eq (b := b₃) (by omega)]

/-- A character that was begun goes on, if all bytes are read. -/
theorem exists_of_pending {index : Nat} {cs : List Char}
    (h : strictFrom index (piecesFrom (some p) bs) = .ok cs) :
    ∃ b rest, bs = b :: rest ∧ p.low ≤ b ∧ b ≤ p.high := by
  cases bs with
  | nil => cases h
  | cons b rest =>
    refine ⟨b, rest, rfl, Classical.byContradiction fun hb => ?_⟩
    rw [piecesFrom, if_neg hb] at h
    cases h

/-- Bytes that are all read begin with one of the forms. -/
theorem exists_spells {index : Nat} {cs : List Char}
    (h : strictFrom index (piecesFrom none (b :: bs)) = .ok cs) :
    ∃ bytes value rest, b :: bs = bytes ++ rest ∧ Spells bytes value := by
  by_cases h1 : b.toNat < 0x80
  · exact ⟨[b], _, bs, rfl, .one h1⟩
  by_cases hstray : b.toNat < 0xC2 ∨ 0xF5 ≤ b.toNat
  · rw [piecesFrom, lead_stray (by omega) hstray] at h
    cases h
  by_cases h2 : b.toNat < 0xE0
  · rw [piecesFrom_opens (lead_two (by omega) h2)] at h
    obtain ⟨b₁, rest, rfl, hb₁⟩ := exists_of_pending h
    exact ⟨[b, b₁], _, rest, rfl, .two (by omega) h2 (isBehind_iff.mpr hb₁)⟩
  by_cases h3 : b.toNat < 0xF0
  · rw [piecesFrom_opens (lead_three (by omega) h3)] at h
    obtain ⟨b₁, rest, rfl, hb₁⟩ := exists_of_pending h
    rw [piecesFrom_more hb₁] at h
    obtain ⟨b₂, rest, rfl, hb₂⟩ := exists_of_pending h
    obtain ⟨h₁, hlow, hhigh⟩ := (second_iff (by decide) (by decide)).mp hb₁
    exact ⟨[b, b₁, b₂], _, rest, rfl,
      .three (by omega) h3 h₁ hlow hhigh (isBehind_iff.mpr hb₂)⟩
  · rw [piecesFrom_opens (lead_four (by omega) (by omega))] at h
    obtain ⟨b₁, rest, rfl, hb₁⟩ := exists_of_pending h
    rw [piecesFrom_more hb₁] at h
    obtain ⟨b₂, rest, rfl, hb₂⟩ := exists_of_pending h
    rw [piecesFrom_more hb₂] at h
    obtain ⟨b₃, rest, rfl, hb₃⟩ := exists_of_pending h
    obtain ⟨h₁, hlow, hhigh⟩ := (second_iff (by decide) (by decide)).mp hb₁
    exact ⟨[b, b₁, b₂, b₃], _, rest, rfl,
      .four (by omega) (by omega) h₁ hlow hhigh (isBehind_iff.mpr hb₂) (isBehind_iff.mpr hb₃)⟩

theorem strictFrom_char {index : Nat} {ps : List Piece} {cs : List Char}
    (h : strictFrom index (.char c :: ps) = .ok cs) :
    ∃ more, cs = c :: more ∧ strictFrom (index + c.utf8Size) ps = .ok more := by
  rw [strictFrom] at h
  cases hrest : strictFrom (index + c.utf8Size) ps with
  | error e =>
    rw [hrest] at h
    cases h
  | ok more =>
    rw [hrest] at h
    cases h
    exact ⟨more, rfl, rfl⟩

theorem encode_cons (c : Char) (cs : List Char) :
    encode (c :: cs) = String.utf8EncodeChar c ++ encode cs :=
  List.flatMap_cons

/-- What was read is written in the bytes it was read from. -/
theorem encode_of_strictFrom {index : Nat} {bytes : List UInt8} {cs : List Char}
    (h : strictFrom index (piecesFrom none bytes) = .ok cs) : encode cs = bytes := by
  -- Every character takes at least one byte, so the induction is on the number of bytes.
  induction hlength : bytes.length using Nat.strongRecOn generalizing bytes index cs with
  | ind n ih =>
  cases bytes with
  | nil =>
    cases h
    rfl
  | cons b bs =>
    obtain ⟨form, value, rest, hsplit, hspells⟩ := exists_spells h
    rw [hsplit] at h hlength ⊢
    rw [piecesFrom_of_spells hspells] at h
    obtain ⟨more, rfl, hmore⟩ := strictFrom_char h
    have hshorter : rest.length < n := by
      rw [← hlength, List.length_append]
      cases hspells <;> simp
    rw [encode_cons, encodeChar_of_spells hspells, ih rest.length hshorter hmore rfl]

/-- What was written is read. -/
theorem strictFrom_encode (index : Nat) (cs : List Char) :
    strictFrom index (piecesFrom none (encode cs)) = .ok cs := by
  induction cs generalizing index with
  | nil => rfl
  | cons c cs ih =>
    rw [encode_cons, piecesFrom_of_spells (spells_encodeChar c), Char.ofNat_toNat, strictFrom, ih]
    rfl

/-- **Bytes are read as a text exactly if it is written in these bytes.** -/
theorem decode_eq_ok_iff {bytes : List UInt8} {text : String} :
    decode bytes = .ok text ↔ encode text.toList = bytes := by
  unfold decode pieces
  constructor
  · intro h
    cases hcs : strictFrom 0 (piecesFrom none bytes) with
    | error e =>
      rw [hcs] at h
      cases h
    | ok cs =>
      rw [hcs] at h
      cases h
      rw [String.toList_ofList, encode_of_strictFrom hcs]
  · rintro rfl
    rw [strictFrom_encode]
    exact congrArg Except.ok (String.ofList_toList)

/-- **The strict reading fails exactly on bytes that no text is written in.** -/
theorem decode_error_iff {bytes : List UInt8} :
    (∃ error, decode bytes = .error error) ↔ ¬IsUtf8 bytes := by
  constructor
  · rintro ⟨error, h⟩ ⟨text, htext⟩
    rw [decode_eq_ok_iff.mpr htext] at h
    cases h
  · intro h
    cases hread : decode bytes with
    | error error => exact ⟨error, rfl⟩
    | ok text => exact absurd ⟨text, decode_eq_ok_iff.mp hread⟩ h

end CredentialRelay.Text.Utf8
