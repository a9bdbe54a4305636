import CredentialRelay.Json.Decoder
import CredentialRelay.Proofs.Json.Grammar

/-!
# Reading what has no brackets

What a reader makes of a piece of the grammar does not depend on what comes behind it, as long as
that does not go on the piece.

* `Delimits r`: a value may end before `r`.
* `Settles read cs`: there is one outcome of reading `cs`, a value or a fault within `cs`, whatever
  text that delimits comes behind.
* `Takes read cs value`: that outcome is `value`, or a fault if there is none.

Results:
* `readString_stringText`: a string is read as what it says, or not at all if it says nothing.
* `skipScalar_text`: a scalar is passed over up to its end, whatever it says.
* `settles_readFound`: so is every scalar that is read, or it has a fault within.
-/

namespace CredentialRelay.Json

/-! ## What comes behind -/

/-- Whether a character may stand behind a value. -/
def isDelimiter (c : Char) : Bool :=
  isBlank c || c == ',' || c == ']' || c == '\x7d'

/-- A text that may stand behind a value. -/
def Delimits (r : List Char) : Prop :=
  ∀ c ∈ r.head?, isDelimiter c = true

/-- A fault in a text that goes on. -/
def Fault.behind (f : Fault) (r : List Char) : Fault :=
  { f with rest := f.rest ++ r }

variable {α β : Type}

/-- The outcome that leaves `r` unread, or has a fault before. -/
def leaving (o : Except Fault α) (r : List Char) : Outcome α :=
  match o with
  | .ok value => .ok (value, r)
  | .error fault => .error (fault.behind r)

/-- There is one outcome of reading a text, whatever comes behind. -/
def Settles (read : Decoder α) (cs : List Char) : Prop :=
  ∃ o : Except Fault α, ∀ r, Delimits r → read (cs ++ r) = leaving o r

theorem map_leaving (f : α → β) (o : Except Fault α) (r : List Char) :
    ((leaving o r).map fun (value, rest) => (f value, rest)) = leaving (o.map f) r := by
  cases o <;> rfl

theorem Settles.map {read : Decoder α} {cs : List Char} (h : Settles read cs) (f : α → β) :
    Settles (fun cs => (read cs).map fun (value, rest) => (f value, rest)) cs := by
  obtain ⟨o, ho⟩ := h
  refine ⟨o.map f, fun r hr => ?_⟩
  rw [← map_leaving, ← ho r hr]

/-- The value of an option, or a fault. -/
def orFault (value : Option α) (fault : Fault) : Except Fault α :=
  match value with
  | some value => .ok value
  | none => .error fault

theorem orFault_map (f : α → β) (value : Option α) (fault : Fault) :
    orFault (value.map f) fault = (orFault value fault).map f := by
  cases value <;> rfl

/-- A text is taken for a value, or refused if there is none, whatever comes behind. -/
def Takes (read : Decoder α) (cs : List Char) (value : Option α) : Prop :=
  ∃ fault, ∀ r, Delimits r → read (cs ++ r) = leaving (orFault value fault) r

theorem Takes.map {read : Decoder α} {cs : List Char} {value : Option α}
    (h : Takes read cs value) (f : α → β) :
    Takes (fun cs => (read cs).map fun (value, rest) => (f value, rest)) cs (value.map f) := by
  obtain ⟨fault, h⟩ := h
  refine ⟨fault, fun r hr => ?_⟩
  rw [orFault_map, ← map_leaving, ← h r hr]

theorem Takes.settles {read : Decoder α} {cs : List Char} {value : Option α}
    (h : Takes read cs value) : Settles read cs := by
  obtain ⟨fault, h⟩ := h
  exact ⟨orFault value fault, h⟩

theorem Settles.takes {read : Decoder α} {cs : List Char} (h : Settles read cs) :
    ∃ value, Takes read cs value := by
  obtain ⟨o, ho⟩ := h
  cases o with
  | ok value => exact ⟨some value, Cause.endInValue.here [], ho⟩
  | error fault => exact ⟨none, fault, ho⟩

/-! ## Blanks -/

theorem skipBlanks_append (gap : Blanks) (cs : List Char) :
    skipBlanks (gap.1 ++ cs) = skipBlanks cs :=
  List.dropWhile_append_of_pos gap.2

theorem skipBlanks_blanks (gap : Blanks) : skipBlanks gap.1 = [] := by
  have h := skipBlanks_append gap []
  rwa [List.append_nil] at h

theorem skipBlanks_cons {c : Char} (h : isBlank c = false) (cs : List Char) :
    skipBlanks (c :: cs) = c :: cs :=
  List.dropWhile_cons_of_neg (by rw [h]; exact Bool.false_ne_true)

/-! ## Strings -/

theorem stringText_cons (g : Glyph) (glyphs : List Glyph) :
    stringText (g :: glyphs) = g.text ++ stringText glyphs := by
  rw [stringText, List.flatMap_cons, List.append_assoc]
  rfl

theorem HexDigit.hexValue?_eq (d : HexDigit) : hexValue? d.1 = some d.value :=
  (Option.some_get d.2).symm

/-- Where a reader is between two pieces of a string. -/
def StringState.between : Option Nat → StringState
  | none => .plain
  | some high => .pairBackslash high

/-- An escape of four digits is read as a whole. -/
theorem readStringFrom_code (high : Option Nat) (read cs : List Char) (a b c d : HexDigit) :
    readStringFrom (.between high) read ((Glyph.code a b c d).text ++ cs) =
      match unit high (codeUnit a b c d) with
      | .ok (.inl c) => readStringFrom .plain (c :: read) cs
      | .ok (.inr h) => readStringFrom (.pairBackslash h) read cs
      | .error cause => .error (cause.here cs) := by
  have hu : simpleEscape? 'u' = none := rfl
  have digits (start : List Char) :
      readStringFrom (.hex high start 0 0) read (a.1 :: b.1 :: c.1 :: d.1 :: cs) =
        readStringFrom (.between high) read ((Glyph.code a b c d).text ++ cs) := by
    cases high <;>
      simp [Glyph.text, StringState.between, readStringFrom, hu, HexDigit.hexValue?_eq]
  rw [← digits []]
  cases hunit : unit high (codeUnit a b c d) with
  | error cause =>
    simp only [codeUnit] at hunit
    simp only [readStringFrom, HexDigit.hexValue?_eq, Nat.zero_add, Nat.reduceLT, if_true, if_false,
      Nat.reduceAdd, Nat.zero_mul, hunit]
  | ok said =>
    simp only [codeUnit] at hunit
    cases said <;>
      simp only [readStringFrom, HexDigit.hexValue?_eq, Nat.zero_add, Nat.reduceLT, if_true,
        if_false, Nat.reduceAdd, Nat.zero_mul, hunit]

theorem spelledFrom_code (high : Option Nat) (a b c d : HexDigit) (glyphs : List Glyph) :
    spelledFrom high (.code a b c d :: glyphs) =
      match unit high (codeUnit a b c d) with
      | .ok (.inl c) => (spelledFrom none glyphs).map (c :: ·)
      | .ok (.inr high) => spelledFrom (some high) glyphs
      | .error _ => none := by
  cases high <;> rfl

/-- **A string is read as what it says**, from any of its pieces on. -/
theorem readStringFrom_stringText (glyphs : List Glyph) (high : Option Nat) (read : List Char) :
    ∃ fault, ∀ r, readStringFrom (.between high) read (stringText glyphs ++ r) =
      leaving (orFault ((spelledFrom high glyphs).map (read.reverse ++ ·)) fault) r := by
  induction glyphs generalizing high read with
  | nil =>
    cases high with
    | none =>
      refine ⟨Cause.endInString.here [], fun r => ?_⟩
      simp [stringText, StringState.between, readStringFrom, spelledFrom, orFault, leaving]
    | some high =>
      refine ⟨Cause.unfinishedSurrogate.next ['"'], fun r => ?_⟩
      simp [stringText, StringState.between, readStringFrom, spelledFrom, orFault, leaving,
        Fault.behind, Cause.next]
  | cons g glyphs ih =>
    rw [stringText_cons]
    cases g with
    | plain c h =>
      obtain ⟨hquote, hbackslash, hcontrol⟩ := h
      cases high with
      | none =>
        obtain ⟨fault, ih⟩ := ih none (c :: read)
        refine ⟨fault, fun r => ?_⟩
        rw [StringState.between] at *
        simp only [Glyph.text, List.cons_append, List.nil_append, readStringFrom, hquote,
          hbackslash, hcontrol, if_false, ih, spelledFrom]
        cases spelledFrom none glyphs <;> simp [orFault, leaving]
      | some high =>
        refine ⟨Cause.unfinishedSurrogate.next (c :: stringText glyphs), fun r => ?_⟩
        simp only [Glyph.text, StringState.between, List.cons_append, List.nil_append,
          readStringFrom, hbackslash, if_false, spelledFrom]
        rfl
    | escape c h =>
      obtain ⟨d, hd⟩ := Option.isSome_iff_exists.mp h
      cases high with
      | none =>
        obtain ⟨fault, ih⟩ := ih none (d :: read)
        refine ⟨fault, fun r => ?_⟩
        rw [StringState.between] at *
        simp only [Glyph.text, List.cons_append, List.nil_append, readStringFrom, hd, if_true,
          if_false, ih, spelledFrom, Option.get_some, Char.reduceEq]
        cases spelledFrom none glyphs <;> simp [orFault, leaving]
      | some high =>
        have hu : c ≠ 'u' := by
          rintro rfl
          cases hd
        refine ⟨Cause.unfinishedSurrogate.next (c :: stringText glyphs), fun r => ?_⟩
        simp only [Glyph.text, StringState.between, List.cons_append, List.nil_append,
          readStringFrom, hu, if_true, if_false, spelledFrom]
        rfl
    | code a b c d =>
      cases hunit : unit high (codeUnit a b c d) with
      | error cause =>
        refine ⟨cause.here (stringText glyphs), fun r => ?_⟩
        rw [List.append_assoc, readStringFrom_code, spelledFrom_code]
        simp only [hunit]
        rfl
      | ok said =>
        cases said with
        | inl char =>
          obtain ⟨fault, ih⟩ := ih none (char :: read)
          refine ⟨fault, fun r => ?_⟩
          rw [List.append_assoc, readStringFrom_code, spelledFrom_code]
          simp only [hunit]
          exact (ih r).trans (by cases spelledFrom none glyphs <;> simp [orFault, leaving])
        | inr half =>
          obtain ⟨fault, ih⟩ := ih (some half) read
          refine ⟨fault, fun r => ?_⟩
          rw [List.append_assoc, readStringFrom_code, spelledFrom_code]
          simp only [hunit]
          exact ih r

/-- **A string is read as what it says**, or not at all if it says nothing. -/
theorem readString_stringText (glyphs : List Glyph) :
    ∃ fault, ∀ r, readString (stringText glyphs ++ r) =
      leaving (orFault (spelled? glyphs) fault) r := by
  obtain ⟨fault, h⟩ := readStringFrom_stringText glyphs none []
  refine ⟨fault, fun r => ?_⟩
  rw [readString, show StringState.plain = .between none from rfl, h, map_leaving, spelled?]
  cases spelledFrom none glyphs <;> rfl

/-- A string is passed over, whether it says something or not. -/
theorem skipString_stringText (glyphs : List Glyph) (r : List Char) :
    skipString (stringText glyphs ++ r) = .ok r := by
  unfold skipString
  induction glyphs with
  | nil => rfl
  | cons g glyphs ih =>
    rw [stringText_cons, List.append_assoc]
    cases g with
    | plain c h =>
      obtain ⟨hquote, hbackslash, hcontrol⟩ := h
      simpa [Glyph.text, skipStringFrom, hquote, hbackslash, hcontrol] using ih
    | escape c h => simpa [Glyph.text, skipStringFrom, h] using ih
    | code a b c d =>
      have hu : simpleEscape? 'u' = none := rfl
      simpa [Glyph.text, skipStringFrom, hu, a.2, b.2, c.2, d.2] using ih

/-! ## Digits -/

/-- A text that goes on no digits. -/
def EndsDigits (r : List Char) : Prop :=
  ∀ c ∈ r.head?, c.isDigit = false

theorem endsDigits_cons {c : Char} (h : c.isDigit = false) (cs : List Char) :
    EndsDigits (c :: cs) := by
  rintro d ⟨⟩
  exact h

theorem isDigit_of_isDelimiter {c : Char} (h : isDelimiter c = true) : c.isDigit = false := by
  simp only [isDelimiter, isBlank, Bool.or_eq_true, beq_iff_eq] at h
  rcases h with (((((rfl | rfl) | rfl) | rfl) | rfl) | rfl) | rfl <;> decide

/-- What delimits does not begin with any other character. -/
theorem Delimits.ne_cons {r : List Char} (h : Delimits r) {c : Char} (hc : isDelimiter c = false)
    (cs : List Char) : r ≠ c :: cs := by
  rintro rfl
  rw [h c rfl] at hc
  cases hc

theorem Delimits.endsDigits {r : List Char} (h : Delimits r) : EndsDigits r :=
  fun c hc => isDigit_of_isDelimiter (h c hc)

/-- A text that begins with a digit does not begin with any other character. -/
theorem ne_cons_of_isDigit {d c : Char} {cs ds : List Char} (hd : d.isDigit = true)
    (hc : c.isDigit = false) : d :: cs ≠ c :: ds := by
  rintro ⟨⟩
  rw [hc] at hd
  cases hd

theorem takeWhile_digits {ds r : List Char} (hds : ∀ c ∈ ds, c.isDigit = true)
    (hr : EndsDigits r) : (ds ++ r).takeWhile Char.isDigit = ds := by
  rw [List.takeWhile_append_of_pos hds]
  cases r with
  | nil => simp
  | cons c cs => simp [hr c rfl]

theorem dropWhile_digits {ds r : List Char} (hds : ∀ c ∈ ds, c.isDigit = true)
    (hr : EndsDigits r) : (ds ++ r).dropWhile Char.isDigit = r := by
  rw [List.dropWhile_append_of_pos hds]
  cases r with
  | nil => rfl
  | cons c cs => simp [hr c rfl]

/-! ## Numbers -/

theorem settles_floating (negative : Bool) (significand : Nat) (exponent : Int) :
    ∃ o, ∀ r, floating negative significand exponent r = leaving o r := by
  cases h : (Binary64.ofNat? significand).bind fun x => scale x 4 exponent with
  | some x => exact ⟨.ok (.floating negative x), fun r => by simp only [floating, h, leaving]⟩
  | none =>
    exact ⟨.error (Cause.numberOutOfRange.here []), fun r => by
      simp only [floating, h, leaving]
      rfl⟩

theorem settles_whole (negative : Bool) (n : Nat) :
    ∃ o, ∀ r, whole negative n r = leaving o r := by
  unfold whole
  split
  · exact ⟨.ok (.natural n), fun r => rfl⟩
  · split
    · exact settles_floating true n 0
    · exact ⟨.ok (.negative n), fun r => rfl⟩

/-- The digits of an exponent are read to their end, or until they have grown too large. -/
theorem readExponentDigits_digits {ds : List Char} (hds : ∀ c ∈ ds, c.isDigit = true)
    (value : Nat) :
    (∃ result, ∀ r, EndsDigits r → readExponentDigits value (ds ++ r) = .ok (result, r)) ∨
      ∃ left : List Char, (∀ c ∈ left, c.isDigit = true) ∧
        ∀ r, readExponentDigits value (ds ++ r) = .error (left ++ r) := by
  induction ds generalizing value with
  | nil =>
    refine .inl ⟨value, fun r hr => ?_⟩
    cases r with
    | nil => rfl
    | cons c cs => simp [readExponentDigits, hr c rfl]
  | cons d ds ih =>
    obtain ⟨hd, hds⟩ := List.forall_mem_cons.mp hds
    by_cases hnext : value * 10 + Text.digitValue d < Word.size31
    · simpa [readExponentDigits, hd, hnext] using ih hds (value * 10 + Text.digitValue d)
    · exact .inr ⟨ds, hds, fun r => by simp [readExponentDigits, hd, hnext]⟩

/-- An exponent without a sign is read as one with a plus. -/
theorem readExponent_plus (negative : Bool) (significand : Nat) (exponent : Int) {d : Char}
    (hd : d.isDigit = true) (cs : List Char) :
    readExponent negative significand exponent (d :: cs) =
      readExponent negative significand exponent ('+' :: d :: cs) := by
  unfold readExponent
  split
  next down rest h =>
    split at h
    · next heq => exact absurd heq (ne_cons_of_isDigit hd (by decide))
    · next heq => exact absurd heq (ne_cons_of_isDigit hd (by decide))
    · cases h
      rfl

theorem settles_readExponent (negative : Bool) (significand : Nat) (exponent : Int)
    (sign : Option Bool) (digits : Digits) :
    Settles (readExponent negative significand exponent) (signText sign ++ digits.1) := by
  obtain ⟨_ | ⟨d, ds⟩, hne, hdigits⟩ := digits
  · exact absurd rfl hne
  obtain ⟨hd, hds⟩ := List.forall_mem_cons.mp hdigits
  have signed (down : Bool) :
      Settles (readExponent negative significand exponent)
        ((if down then '-' else '+') :: d :: ds) := by
    rcases readExponentDigits_digits hds (Text.digitValue d) with ⟨value, h⟩ | ⟨left, hleft, h⟩
    · obtain ⟨o, ho⟩ := settles_floating negative significand
        (if down then exponent - value else exponent + value)
      refine ⟨o, fun r hr => ?_⟩
      cases down <;> simpa [readExponent, hd, h r hr.endsDigits] using ho r
    · by_cases hlarge : significand ≠ 0 ∧ down = false
      · refine ⟨.error (Cause.numberOutOfRange.here left), fun r _ => ?_⟩
        simp [readExponent, hd, h r, hlarge, leaving, Fault.behind, Cause.here]
      · refine ⟨.ok (.floating negative ⟨0, Binary64.minExponent⟩), fun r hr => ?_⟩
        have hrest := dropWhile_digits hleft hr.endsDigits
        cases down with
        | false => simp_all [readExponent, leaving]
        | true => simp [readExponent, hd, h r, leaving, hrest]
  match sign with
  | some true => exact signed true
  | some false => exact signed false
  | none =>
    obtain ⟨o, ho⟩ := signed false
    refine ⟨o, fun r hr => ?_⟩
    rw [← ho r hr]
    exact readExponent_plus negative significand exponent hd (ds ++ r)

theorem endsDigits_exponentText (e : Option Exponent) {r : List Char} (hr : Delimits r) :
    EndsDigits (exponentText e ++ r) := by
  match e with
  | none => exact hr.endsDigits
  | some ⟨true, _, _⟩ => exact endsDigits_cons rfl _
  | some ⟨false, _, _⟩ => exact endsDigits_cons rfl _

/-- Reads on after all digits of a number. -/
def readBehindDigits (negative : Bool) (significand : Nat) (exponent : Int) : Decoder Number
  | 'e' :: rest => readExponent negative significand exponent rest
  | 'E' :: rest => readExponent negative significand exponent rest
  | rest => floating negative significand exponent rest

theorem settles_readBehindDigits (negative : Bool) (significand : Nat) (exponent : Int)
    (e : Option Exponent) :
    Settles (readBehindDigits negative significand exponent) (exponentText e) := by
  match e with
  | some ⟨true, sign, digits⟩ => exact settles_readExponent ..
  | some ⟨false, sign, digits⟩ => exact settles_readExponent ..
  | none =>
    obtain ⟨o, ho⟩ := settles_floating negative significand exponent
    refine ⟨o, fun r hr => ?_⟩
    rw [← ho r, exponentText, List.nil_append]
    unfold readBehindDigits
    split
    · exact absurd rfl (hr.ne_cons (by decide) _)
    · exact absurd rfl (hr.ne_cons (by decide) _)
    · rfl

theorem settles_readFraction (negative : Bool) (significand : Nat) (exponent : Int)
    (digits : Digits) (e : Option Exponent) :
    Settles (readFraction negative significand exponent) (digits.1 ++ exponentText e) := by
  obtain ⟨ds, hne, hds⟩ := digits
  obtain ⟨o, ho⟩ := settles_readBehindDigits negative (absorb significand ds).1
    (exponent - (ds.length - (absorb significand ds).2.length : Nat)) e
  refine ⟨o, fun r hr => ?_⟩
  have hends := endsDigits_exponentText e hr
  rw [← ho r hr, List.append_assoc]
  simp only [readFraction, takeWhile_digits hds hends, dropWhile_digits hds hends,
    List.isEmpty_iff, hne, if_false]
  rfl

/-- What may follow the digits before the point goes on no digits. -/
theorem endsDigits_tail (n : Numeral) {r : List Char} (hr : Delimits r) :
    EndsDigits (n.tail ++ r) := by
  rw [Numeral.tail, List.append_assoc]
  match n.fraction with
  | none => exact endsDigits_exponentText n.exponent hr
  | some _ => exact endsDigits_cons rfl _

/-- Nothing but a delimiter follows the digits before the point of a whole number. -/
theorem readNumberTail_none (negative : Bool) (significand dropped : Nat) {r : List Char}
    (hr : Delimits r) :
    readNumberTail negative significand dropped r =
      if dropped = 0 then whole negative significand r
      else floating negative significand dropped r := by
  unfold readNumberTail
  split
  · exact absurd rfl (hr.ne_cons (by decide) _)
  · exact absurd rfl (hr.ne_cons (by decide) _)
  · exact absurd rfl (hr.ne_cons (by decide) _)
  · rfl

theorem settles_readNumberTail (negative : Bool) (significand dropped : Nat) (n : Numeral) :
    Settles (readNumberTail negative significand dropped) n.tail := by
  rw [Numeral.tail]
  match n.fraction, n.exponent with
  | some digits, e => exact settles_readFraction negative significand dropped digits e
  | none, some ⟨true, sign, digits⟩ => exact settles_readExponent ..
  | none, some ⟨false, sign, digits⟩ => exact settles_readExponent ..
  | none, none =>
    have hplain (r : List Char) (hr : Delimits r) :=
      readNumberTail_none negative significand dropped hr
    by_cases hdropped : dropped = 0
    · obtain ⟨o, ho⟩ := settles_whole negative significand
      exact ⟨o, fun r hr => (hplain r hr).trans ((if_pos hdropped).trans (ho r))⟩
    · obtain ⟨o, ho⟩ := settles_floating negative significand dropped
      exact ⟨o, fun r hr => (hplain r hr).trans ((if_neg hdropped).trans (ho r))⟩

theorem digitValue_lt_size64 {d : Char} (hd : d.isDigit = true) :
    Text.digitValue d < Word.size64 := by
  have hle : d.toNat ≤ '9'.toNat := (Bool.and_eq_true_iff.mp hd).2 |> of_decide_eq_true
  have hnine : '9'.toNat < Word.size64 := by decide
  exact Nat.lt_of_le_of_lt (Nat.sub_le _ _) (Nat.lt_of_le_of_lt hle hnine)

/-- The digits of a number before its point: a zero, or others than a zero first. -/
theorem Numeral.whole_cases (n : Numeral) : n.whole.1 = ['0'] ∨
    ∃ d ds, n.whole.1 = d :: ds ∧ d ≠ '0' ∧ d.isDigit = true ∧ ∀ c ∈ ds, c.isDigit = true := by
  obtain ⟨_, ⟨_ | ⟨d, ds⟩, hne, hdigits⟩, hcanonical, _, _⟩ := n
  · exact absurd rfl hne
  · obtain ⟨hd, hds⟩ := List.forall_mem_cons.mp hdigits
    by_cases hzero : d = '0'
    · exact .inl (hcanonical (congrArg some hzero))
    · exact .inr ⟨d, ds, rfl, hzero, hd, hds⟩

/-- A number is read by its digits before the point, and then by what follows them. -/
theorem readNumber_magnitude (negative : Bool) (n : Numeral) {r : List Char} (hr : Delimits r) :
    readNumber negative (n.magnitude ++ r) =
      readNumberTail negative (absorb 0 n.whole.1).1 (absorb 0 n.whole.1).2.length
        (n.tail ++ r) := by
  have hends := endsDigits_tail n hr
  rw [Numeral.magnitude, List.append_assoc]
  rcases n.whole_cases with hzero | ⟨d, ds, hwhole, hd0, hd, hds⟩
  · simp only [hzero, List.cons_append, List.nil_append, readNumber, if_true]
    split
    · next c cs heq =>
      rw [heq] at hends ⊢
      rw [if_neg (by simp [hends c rfl])]
      rfl
    · next heq =>
      rw [heq]
      rfl
  · have hfirst : absorb 0 (d :: ds) = absorb (Text.digitValue d) ds := by
      rw [absorb, Nat.zero_mul, Nat.zero_add, if_pos (digitValue_lt_size64 hd)]
    simp only [hwhole, hfirst, List.cons_append, readNumber, hd0, hd, if_true, if_false,
      takeWhile_digits hds hends, dropWhile_digits hds hends]

theorem settles_readNumber (negative : Bool) (n : Numeral) :
    Settles (readNumber negative) n.magnitude := by
  obtain ⟨o, ho⟩ := settles_readNumberTail negative (absorb 0 n.whole.1).1
    (absorb 0 n.whole.1).2.length n
  refine ⟨o, fun r hr => ?_⟩
  rw [readNumber_magnitude negative n hr, ho r hr]

/-! ## Numbers that are passed over -/

theorem skipExponent_digits (sign : Option Bool) (digits : Digits) {r : List Char}
    (hr : Delimits r) : skipExponent (signText sign ++ digits.1 ++ r) = .ok r := by
  obtain ⟨_ | ⟨d, ds⟩, hne, hdigits⟩ := digits
  · exact absurd rfl hne
  obtain ⟨hd, hds⟩ := List.forall_mem_cons.mp hdigits
  have hrest := dropWhile_digits hds hr.endsDigits
  match sign with
  | some true => simp [signText, skipExponent, hd, hrest]
  | some false => simp [signText, skipExponent, hd, hrest]
  | none =>
    simp only [signText, List.nil_append, List.cons_append, skipExponent]
    split
    · next heq =>
      split at heq
      · next h => exact absurd h (ne_cons_of_isDigit hd (by decide))
      · next h => exact absurd h (ne_cons_of_isDigit hd (by decide))
      · cases heq
    · next c cs heq =>
      split at heq
      · next h => exact absurd h (ne_cons_of_isDigit hd (by decide))
      · next h => exact absurd h (ne_cons_of_isDigit hd (by decide))
      · cases heq
        simp [hd, hrest]

/-- Behind the digits of a number, its exponent is passed over if it has one. -/
theorem skip_exponentText (e : Option Exponent) {r : List Char} (hr : Delimits r) :
    (match exponentText e ++ r with
      | 'e' :: rest => skipExponent rest
      | 'E' :: rest => skipExponent rest
      | rest => .ok rest) = .ok r := by
  match e with
  | some ⟨true, sign, digits⟩ => exact skipExponent_digits sign digits hr
  | some ⟨false, sign, digits⟩ => exact skipExponent_digits sign digits hr
  | none =>
    simp only [exponentText, List.nil_append]
    split
    · exact absurd rfl (hr.ne_cons (by decide) _)
    · exact absurd rfl (hr.ne_cons (by decide) _)
    · rfl

theorem skipNumberTail_tail (n : Numeral) {r : List Char} (hr : Delimits r) :
    skipNumberTail (n.tail ++ r) = .ok r := by
  rw [Numeral.tail, List.append_assoc]
  match n.fraction, n.exponent with
  | some ⟨ds, hne, hds⟩, e =>
    have hends := endsDigits_exponentText e hr
    simp only [fractionText, List.cons_append, skipNumberTail, takeWhile_digits hds hends,
      dropWhile_digits hds hends, List.isEmpty_iff, hne, if_false]
    exact skip_exponentText e hr
  | none, some ⟨true, sign, digits⟩ => exact skipExponent_digits sign digits hr
  | none, some ⟨false, sign, digits⟩ => exact skipExponent_digits sign digits hr
  | none, none =>
    simp only [fractionText, exponentText, List.nil_append]
    unfold skipNumberTail
    split
    · exact absurd rfl (hr.ne_cons (by decide) _)
    · exact absurd rfl (hr.ne_cons (by decide) _)
    · exact absurd rfl (hr.ne_cons (by decide) _)
    · rfl

theorem skipNumber_magnitude (n : Numeral) {r : List Char} (hr : Delimits r) :
    skipNumber (n.magnitude ++ r) = .ok r := by
  rw [Numeral.magnitude, List.append_assoc]
  have hends := endsDigits_tail n hr
  have htail := skipNumberTail_tail n hr
  rcases n.whole_cases with hzero | ⟨d, ds, hwhole, hd0, hd, hds⟩
  · simp only [hzero, List.cons_append, List.nil_append, skipNumber, if_true]
    split
    · next c cs heq => simpa [hends c (by rw [heq]; rfl), heq] using htail
    · next heq =>
      rw [heq] at htail
      exact htail
  · simpa [hwhole, skipNumber, hd0, hd, dropWhile_digits hds hends] using htail

/-! ## Scalars -/

theorem readName_append (name r : List Char) : readName name (name ++ r) = .ok r := by
  induction name with
  | nil => rfl
  | cons c name ih => simpa [readName] using ih

/-- A number without its sign begins with a digit. -/
theorem Numeral.magnitude_cons (n : Numeral) :
    ∃ d cs, n.magnitude = d :: cs ∧ d.isDigit = true := by
  unfold magnitude
  rcases n.whole_cases with hzero | ⟨d, ds, hwhole, -, hd, -⟩
  · exact ⟨'0', n.tail, by rw [hzero]; rfl, rfl⟩
  · exact ⟨d, ds ++ n.tail, by rw [hwhole]; rfl, hd⟩

/-- A reader that goes by the first character takes a number by its sign or by its first digit. -/
theorem Numeral.text_cases (n : Numeral) : n.text = '-' :: n.magnitude ∨
    ∃ d cs, n.text = n.magnitude ∧ n.magnitude = d :: cs ∧ d.isDigit = true := by
  obtain ⟨d, cs, hmagnitude, hd⟩ := n.magnitude_cons
  unfold Numeral.text
  cases n.negative with
  | true => exact .inl rfl
  | false => exact .inr ⟨d, cs, rfl, hmagnitude, hd⟩

/-- A reader that goes by the first character takes a digit for a number. -/
theorem skipScalar_digit {d : Char} (hd : d.isDigit = true) (cs : List Char) :
    skipScalar (d :: cs) = skipNumber (d :: cs) := by
  unfold skipScalar
  split
  · next h => exact absurd h (ne_cons_of_isDigit hd (by decide))
  · next h => exact absurd h (ne_cons_of_isDigit hd (by decide))
  · next h => exact absurd h (ne_cons_of_isDigit hd (by decide))
  · next h => exact absurd h (ne_cons_of_isDigit hd (by decide))
  · next h => exact absurd h (ne_cons_of_isDigit hd (by decide))
  · next h => cases h
  · next h =>
    cases h
    exact if_pos hd

/-- **A scalar is passed over** up to its end. -/
theorem skipScalar_text (s : Scalar) {r : List Char} (hr : Delimits r) :
    skipScalar (s.text ++ r) = .ok r := by
  match s with
  | .null => exact readName_append ['u', 'l', 'l'] r
  | .boolean true => exact readName_append ['r', 'u', 'e'] r
  | .boolean false => exact readName_append ['a', 'l', 's', 'e'] r
  | .string glyphs => exact skipString_stringText glyphs r
  | .number n =>
    have hn := skipNumber_magnitude n hr
    rcases n.text_cases with htext | ⟨d, cs, htext, hcs, hd⟩
    · rw [Scalar.text, htext]
      exact hn
    · rw [hcs] at hn htext
      rw [Scalar.text, htext]
      exact (skipScalar_digit hd (cs ++ r)).trans hn

theorem readFound_digit {d : Char} (hd : d.isDigit = true) (cs : List Char) :
    readFound (d :: cs) =
      (readNumber false (d :: cs)).map fun (n, rest) => (.number n, rest) := by
  unfold readFound
  split
  · next h => exact absurd h (ne_cons_of_isDigit hd (by decide))
  · next h => exact absurd h (ne_cons_of_isDigit hd (by decide))
  · next h => exact absurd h (ne_cons_of_isDigit hd (by decide))
  · next h => exact absurd h (ne_cons_of_isDigit hd (by decide))
  · next h => exact absurd h (ne_cons_of_isDigit hd (by decide))
  · next h => exact absurd h (ne_cons_of_isDigit hd (by decide))
  · next h => exact absurd h (ne_cons_of_isDigit hd (by decide))
  · next h => cases h
  · next h =>
    cases h
    exact if_pos hd

/-- **What a scalar is found to be** does not depend on what comes behind. -/
theorem settles_readFound (s : Scalar) : Settles readFound s.text := by
  match s with
  | .null =>
    exact ⟨.ok .null, fun r _ =>
      congrArg (Except.map fun rest => (Found.null, rest)) (readName_append ['u', 'l', 'l'] r)⟩
  | .boolean true =>
    exact ⟨.ok (.boolean true), fun r _ => congrArg
      (Except.map fun rest => (Found.boolean true, rest)) (readName_append ['r', 'u', 'e'] r)⟩
  | .boolean false =>
    exact ⟨.ok (.boolean false), fun r _ => congrArg
      (Except.map fun rest => (Found.boolean false, rest)) (readName_append ['a', 'l', 's', 'e'] r)⟩
  | .string glyphs =>
    obtain ⟨fault, h⟩ := readString_stringText glyphs
    refine ⟨(orFault (spelled? glyphs) fault).map .text, fun r _ => ?_⟩
    rw [← map_leaving, ← h r]
    rfl
  | .number n =>
    rcases n.text_cases with htext | ⟨d, cs, htext, hcs, hd⟩
    · obtain ⟨o, ho⟩ := (settles_readNumber true n).map Found.number
      refine ⟨o, fun r hr => ?_⟩
      rw [Scalar.text, htext, ← ho r hr]
      rfl
    · obtain ⟨o, ho⟩ := (settles_readNumber false n).map Found.number
      refine ⟨o, fun r hr => ?_⟩
      rw [hcs] at ho htext
      rw [Scalar.text, htext, ← ho r hr]
      exact readFound_digit hd (cs ++ r)

end CredentialRelay.Json
