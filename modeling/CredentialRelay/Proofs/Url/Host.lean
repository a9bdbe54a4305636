import CredentialRelay.Proofs.Text.Split
import CredentialRelay.Url.Host

/-!
# Blanks in hosts

A host is decoded, put into lower case and encoded again before its characters are looked at. Spaces
and control characters, which are the characters up to the space, outlive all of that, so no text
that ends in one is a host.

Results:
* `mem_normalName`: such a character of a name is one of the name as it is sent.
* `specialHost_blank`: a text that ends in such a character is no host.
-/

namespace CredentialRelay

/-! ## Bytes of ASCII -/

namespace Text.Utf8

/-- A character that is begun goes on with bytes beyond ASCII. -/
def Pending.Sound (p : Pending) : Prop :=
  0x80 ≤ p.low

theorem lead_of_ascii {b : UInt8} (h : b < 0x80) : lead b = .whole (.char (Char.ofNat b.toNat)) :=
  if_pos h

theorem sound_of_lead {b : UInt8} {p : Pending} (h : lead b = .opens p) : p.Sound := by
  have hlow : (0x80 : UInt8) ≤ 0x80 ∧ (0x80 : UInt8) ≤ 0xA0 ∧ (0x80 : UInt8) ≤ 0x90 := by decide
  unfold lead at h
  repeat' split at h
  all_goals cases h
  all_goals first | exact hlow.1 | exact hlow.2.1 | exact hlow.2.2

/-- **A byte of ASCII is read as its character**, whatever was begun before. -/
theorem mem_piecesFrom {b : UInt8} (hb : b < 0x80) {bytes : List UInt8} (h : b ∈ bytes) :
    ∀ {pending : Option Pending}, (∀ p ∈ pending, p.Sound) →
      .char (Char.ofNat b.toNat) ∈ piecesFrom pending bytes := by
  induction bytes with
  | nil => cases h
  | cons d bytes ih =>
    -- The byte `d` is read as a first one, also after a character that it does not continue.
    have hfirst : .char (Char.ofNat b.toNat) ∈ piecesFrom none (d :: bytes) := by
      unfold piecesFrom
      rcases List.mem_cons.mp h with rfl | hmem
      · rw [lead_of_ascii hb]
        exact List.mem_cons_self
      · cases hlead : lead d with
        | whole piece => exact List.mem_cons_of_mem _ (ih hmem nofun)
        | opens p => exact ih hmem fun q hq => Option.mem_some.mp hq ▸ sound_of_lead hlead
    intro pending hsound
    cases pending with
    | none => exact hfirst
    | some p =>
      unfold piecesFrom
      split
      · next hrange =>
        have hne : b ≠ d := by
          rintro rfl
          exact absurd hb (UInt8.not_lt.mpr (UInt8.le_trans (hsound p rfl) hrange.1))
        have hmem := (List.mem_cons.mp h).resolve_left hne
        simp only
        split
        · exact List.mem_cons_of_mem _ (ih hmem nofun)
        · refine ih hmem fun q hq => Option.mem_some.mp hq ▸ ?_
          show (0x80 : UInt8) ≤ 0x80
          decide
      · exact List.mem_cons_of_mem _ hfirst

theorem mem_of_strictFrom {c : Char} : ∀ {index : Nat} {ps : List Piece} {cs : List Char},
    strictFrom index ps = .ok cs → .char c ∈ ps → c ∈ cs := by
  intro index ps cs h hc
  rw [← map_shown_of_strictFrom h]
  exact List.mem_map_of_mem hc

/-- A byte of ASCII is a character of what is decoded. -/
theorem mem_of_decode {bytes : List UInt8} {text : String} {b : UInt8} (hb : b < 0x80)
    (h : decode bytes = .ok text) (hmem : b ∈ bytes) : Char.ofNat b.toNat ∈ text.toList := by
  unfold decode at h
  cases hs : strictFrom 0 (pieces bytes) with
  | error e =>
    rw [hs] at h
    cases h
  | ok cs =>
    rw [hs] at h
    cases h
    rw [String.toList_ofList]
    exact mem_of_strictFrom hs (mem_piecesFrom hb hmem nofun)

end Text.Utf8

namespace Url

/-! ## From a host to its name -/

theorem ne_of_blank {c d : Char} (hc : c.toNat ≤ 0x20) (hd : 0x20 < d.toNat) : c ≠ d := by
  rintro rfl
  exact absurd hc (Nat.not_le.mpr hd)

theorem ascii_of_blank {c : Char} (hc : c.toNat ≤ 0x20) : c.toNat < 0x80 :=
  Nat.lt_of_le_of_lt hc (by decide)

theorem hexByte?_blank {b : UInt8} (hb : b ≤ 0x20) : hexByte? b = none := by
  have hle := UInt8.le_iff_toNat_le.mp hb
  unfold hexByte?
  simp only [UInt8.le_iff_toNat_le]
  rw [if_neg, if_neg, if_neg]
  all_goals
    simp
    simp at hle
    omega

/-- A space or a control character is no part of an encoded byte. -/
theorem mem_percentDecode {b : UInt8} (hb : b ≤ 0x20) {bytes : List UInt8} (h : b ∈ bytes) :
    b ∈ percentDecode bytes := by
  have hpercent : b ≠ 37 := by
    rintro rfl
    exact absurd hb (by decide)
  have hdigit {a : UInt8} {x : Nat} (ha : hexByte? a = some x) : b ≠ a := by
    rintro rfl
    rw [hexByte?_blank hb] at ha
    cases ha
  induction bytes using percentDecode.induct with
  | case1 a d rest x y hd ha ih =>
    rw [percentDecode, ha, hd]
    simp only [List.mem_cons, hpercent, hdigit ha, hdigit hd, false_or] at h
    exact List.mem_cons_of_mem _ (ih h)
  | case2 a d rest hno ih =>
    rw [percentDecode]
    split
    · next ha hd => exact (hno _ _ ha hd).elim
    · exact List.mem_cons_of_mem _ (ih ((List.mem_cons.mp h).resolve_left hpercent))
  | case3 d rest hno ih =>
    rw [percentDecode]
    · rcases List.mem_cons.mp h with rfl | h
      · exact List.mem_cons_self
      · exact List.mem_cons_of_mem _ (ih h)
    · exact hno
  | case4 => cases h

theorem mem_utf8EncodeChar {c : Char} (hc : c.toNat < 0x80) :
    UInt8.ofNat c.toNat ∈ String.utf8EncodeChar c := by
  have hval : c.val.toNat ≤ 127 := Nat.le_of_lt_succ hc
  unfold String.utf8EncodeChar
  simp only
  rw [if_pos hval]
  exact List.mem_singleton_self _

/-- A space or a control character is its own form in lower case. -/
theorem mem_lowercaseFrom {c : Char} (hc : c.toNat ≤ 0x20) : ∀ {before cs : List Char},
    c ∈ cs → c ∈ Text.lowercaseFrom before cs
  | before, d :: cs, h => by
    unfold Text.lowercaseFrom
    rcases List.mem_cons.mp h with rfl | h
    · have hupper : ¬(c.val ≥ 'A'.val ∧ c.val ≤ 'Z'.val) := by
        rintro ⟨hge, -⟩
        have hlt : c.toNat < 'A'.toNat := Nat.lt_of_le_of_lt hc (by decide)
        exact absurd (UInt32.le_iff_toNat_le.mp hge) (Nat.not_le.mpr hlt)
      have hlower : c.toLower = c := by
        unfold Char.toLower
        exact dif_neg hupper
      refine List.mem_append_left _ ?_
      rw [if_neg (ne_of_blank hc (by decide)), if_neg (ne_of_blank hc (by decide)),
        Text.lowercaseChar, if_pos (ascii_of_blank hc), hlower]
      exact List.mem_singleton_self _
    · exact List.mem_append_right _ (mem_lowercaseFrom hc h)

namespace Punycode

/-- What was written stays. -/
theorem mem_pass {basic m : Nat} {c : Char} {p : Progress} {d : Char} (h : c ∈ p.written) :
    c ∈ (pass basic m p d).written := by
  unfold pass
  split
  · exact h
  · split
    · exact List.mem_append_left _ h
    · exact h

theorem mem_foldl_pass {basic m : Nat} {c : Char} (label : List Char) : ∀ {p : Progress},
    c ∈ p.written → c ∈ (label.foldl (pass basic m) p).written := by
  induction label with
  | nil => exact fun h => h
  | cons d label ih => exact fun h => ih (mem_pass h)

theorem mem_insertAll {label : List Char} {basic : Nat} {c : Char} (values : List Nat) :
    ∀ {n : Nat} {p : Progress}, c ∈ p.written → c ∈ (insertAll label basic values n p).written := by
  induction values with
  | nil => exact fun h => h
  | cons m values ih => exact fun h => ih (mem_foldl_pass label h)

/-- The characters of ASCII of a label are written. -/
theorem mem_encodeLabel {label : List Char} {c : Char} (hc : c.toNat < 0x80) (h : c ∈ label) :
    c ∈ encodeLabel label := by
  unfold encodeLabel
  split
  · exact h
  · refine List.mem_append_right _ ?_
    unfold encode
    refine mem_insertAll _ ?_
    have hmem : c ∈ label.filter fun c => decide (c.toNat < 0x80) :=
      List.mem_filter.mpr ⟨h, decide_eq_true hc⟩
    have hne : (label.filter fun c => decide (c.toNat < 0x80)).isEmpty = false :=
      List.isEmpty_eq_false_iff_exists_mem.mpr ⟨c, hmem⟩
    simp only [hne, Bool.false_eq_true, if_false]
    exact List.mem_append_left _ hmem

end Punycode

/-- **A space or a control character of a name is one of the name as it is sent.** -/
theorem mem_normalName {c : Char} (hc : c.toNat ≤ 0x20) {cs : List Char} (h : c ∈ cs) :
    c ∈ normalName cs := by
  have hdot : c ≠ '.' := ne_of_blank hc (by decide)
  have hstop : isFullStop c = false := by
    unfold isFullStop
    rw [beq_false_of_ne (ne_of_blank hc (by decide)), beq_false_of_ne (ne_of_blank hc (by decide)),
      beq_false_of_ne (ne_of_blank hc (by decide))]
    rfl
  have hmem : c ∈ (Text.lowercaseFrom [] cs).map fun c => if isFullStop c then '.' else c := by
    refine List.mem_map.mpr ⟨c, mem_lowercaseFrom hc h, ?_⟩
    rw [hstop]
    rfl
  unfold normalName
  simp only
  generalize ((Text.lowercaseFrom [] cs).map fun c => if isFullStop c then '.' else c) = stops at hmem
  rcases Text.exists_mem_splitAll hmem with heq | ⟨label, hlabel, hin⟩
  · exact absurd heq hdot
  · have hencoded : c ∈ Punycode.encodeLabel label :=
      Punycode.mem_encodeLabel (ascii_of_blank hc) hin
    have hlabels : (Text.splitAll '.' stops).map Punycode.encodeLabel ≠ [] := by
      simpa using Text.splitAll_ne_nil '.' stops
    have hall : c ∈ ((Text.splitAll '.' stops).map Punycode.encodeLabel).flatMap ('.' :: ·) :=
      List.mem_flatMap.mpr
        ⟨_, List.mem_map_of_mem hlabel, List.mem_cons_of_mem _ hencoded⟩
    rw [Text.flatMap_eq_cons_intercalate '.' hlabels] at hall
    exact (List.mem_cons.mp hall).resolve_left hdot

theorem isForbidden_blank {c : Char} (hc : c.toNat ≤ 0x20) : isForbidden c = true := by
  rcases Nat.lt_or_eq_of_le hc with hlt | heq
  · unfold isForbidden isControl
    rw [decide_eq_true hlt]
    rfl
  · obtain rfl : c = ' ' := Char.toNat_inj.mp heq
    rfl

/-- **A text that ends in a space or a control character is no host.** -/
theorem specialHost_blank {c : Char} (hc : c.toNat ≤ 0x20) (cs : List Char) (host : Host) :
    specialHost (cs ++ [c]) ≠ .ok host := by
  intro h
  unfold specialHost at h
  split at h
  · next rest hrest =>
    have hlast : rest.getLast? = some c := by
      cases cs with
      | nil =>
        obtain rfl := (List.cons.inj hrest).1
        exact absurd hc (by decide)
      | cons d cs =>
        rw [← (List.cons.inj hrest).2]
        exact List.getLast?_concat
    rw [hlast, if_neg] at h
    · cases h
    · intro heq
      obtain rfl := Option.some.inj heq
      exact absurd hc (by decide)
  · cases hdecode : Text.Utf8.decode (percentDecodeChars (cs ++ [c])) with
    | error e =>
      rw [hdecode] at h
      cases h
    | ok decoded =>
      have hnat : (UInt8.ofNat c.toNat).toNat = c.toNat :=
        UInt8.toNat_ofNat_of_lt' (Nat.lt_of_le_of_lt hc (by decide))
      have hascii : c.toNat < 0x80 := ascii_of_blank hc
      have hmem : UInt8.ofNat c.toNat ∈ percentDecodeChars (cs ++ [c]) := by
        refine mem_percentDecode (UInt8.le_iff_toNat_le.mpr (hnat.symm ▸ hc))
          (List.mem_flatMap.mpr ⟨c, List.mem_concat_self, mem_utf8EncodeChar hascii⟩)
      have hchar := Text.Utf8.mem_of_decode (UInt8.lt_iff_toNat_lt.mpr (hnat.symm ▸ hascii)) hdecode
        hmem
      rw [hnat, Char.ofNat_toNat] at hchar
      have hany : (normalName decoded.toList).any isForbidden = true :=
        List.any_eq_true.mpr ⟨c, mem_normalName hc hchar, isForbidden_blank hc⟩
      rw [hdecode] at h
      simp only [hany, if_true] at h
      cases h

end Url

end CredentialRelay
