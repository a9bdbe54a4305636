import CredentialRelay.Proofs.Json.Values

/-!
# Natural numbers that are read

A number is read as a natural one only if it is written as one: without a sign, a point and an
exponent. Any other form is refused, even if it is a whole number that it writes, and so is a number
that is too large.

* `Value.natural? bound`: what a value says as a natural number below a bound.

Results:
* `readNumber_natural_iff`: when a number is found to be a natural one.
* `natural_means`: a natural number is read for what a value says as one.
-/

namespace CredentialRelay.Json

/-- What a number says as a natural one. -/
def Numeral.natural? : Numeral → Option Nat
  | ⟨false, whole, _, none, none⟩ => some (Text.digitsValue 0 whole.1)
  | _ => none

/-- What a value says as a natural number below a bound. -/
def Value.natural? (bound : Nat) : Value → Option Nat
  | .scalar (.number n) => n.natural?.filter fun k => k < bound
  | _ => none

variable {negative : Bool} {significand dropped k : Nat} {exponent : Int} {cs rest : List Char}

/-! ## Digits -/

/-- Digits are absorbed to their end exactly if the number that they write is small enough. -/
theorem absorb_digits {value : Nat} (h : value < Word.size64) (ds : List Char) :
    (Text.digitsValue value ds < Word.size64 →
      absorb value ds = (Text.digitsValue value ds, [])) ∧
    (Word.size64 ≤ Text.digitsValue value ds → (absorb value ds).2 ≠ []) := by
  induction ds generalizing value with
  | nil => exact ⟨fun _ => rfl, fun hlarge => absurd h (Nat.not_lt.mpr hlarge)⟩
  | cons d ds ih =>
    rw [Text.digitsValue_cons, absorb]
    by_cases hnext : value * 10 + Text.digitValue d < Word.size64
    · simp only [if_pos hnext]
      exact ih hnext
    · have hgrown := Text.le_digitsValue (value * 10 + Text.digitValue d) ds
      simp only [if_neg hnext]
      exact ⟨fun hsmall => absurd (Nat.lt_of_le_of_lt hgrown hsmall) hnext,
        fun _ => List.cons_ne_nil d ds⟩

/-! ## Numbers -/

theorem floating_ne_natural :
    floating negative significand exponent cs ≠ .ok (.natural k, rest) := by
  unfold floating
  split <;> nofun

theorem readExponent_ne_natural :
    readExponent negative significand exponent cs ≠ .ok (.natural k, rest) := by
  intro h
  unfold readExponent at h
  split at h
  split at h
  · cases h
  · split at h
    · split at h
      · exact floating_ne_natural h
      · split at h <;> cases h
    · cases h

theorem readFraction_ne_natural :
    readFraction negative significand exponent cs ≠ .ok (.natural k, rest) := by
  unfold readFraction
  simp only
  split
  · nofun
  · split
    · exact readExponent_ne_natural
    · exact readExponent_ne_natural
    · exact floating_ne_natural

theorem whole_natural_iff :
    whole negative significand cs = .ok (.natural k, rest) ↔
      negative = false ∧ significand = k ∧ cs = rest := by
  unfold whole
  cases negative with
  | false => simp
  | true =>
    refine iff_of_false ?_ (fun h => nomatch h.1)
    rw [if_neg (by decide)]
    split
    · exact floating_ne_natural
    · nofun

/-- What follows the digits before the point of a natural number is nothing. -/
theorem readNumberTail_natural_iff (n : Numeral) {r : List Char} (hr : Delimits r) :
    readNumberTail negative significand dropped (n.tail ++ r) = .ok (.natural k, rest) ↔
      n.fraction = none ∧ n.exponent = none ∧ dropped = 0 ∧
        negative = false ∧ significand = k ∧ r = rest := by
  obtain ⟨_, whole, _, fraction, exponent⟩ := n
  match fraction, exponent with
  | some digits, e => exact iff_of_false readFraction_ne_natural nofun
  | none, some ⟨true, sign, digits⟩ => exact iff_of_false readExponent_ne_natural nofun
  | none, some ⟨false, sign, digits⟩ => exact iff_of_false readExponent_ne_natural nofun
  | none, none =>
    show readNumberTail negative significand dropped r = _ ↔ _
    rw [readNumberTail_none _ _ _ hr]
    by_cases hdropped : dropped = 0
    · simp [hdropped, whole_natural_iff]
    · rw [if_neg hdropped]
      exact iff_of_false floating_ne_natural fun h => hdropped h.2.2.1

/-- **When a number is found to be a natural one.** -/
theorem readNumber_natural_iff (n : Numeral) {r : List Char} (hr : Delimits r) :
    readNumber n.negative (n.magnitude ++ r) = .ok (.natural k, rest) ↔
      n.natural? = some k ∧ k < Word.size64 ∧ r = rest := by
  rw [readNumber_magnitude n.negative n hr, readNumberTail_natural_iff n hr,
    List.length_eq_zero_iff]
  obtain ⟨hsmall, hlarge⟩ := absorb_digits (by decide : 0 < Word.size64) n.whole.1
  obtain ⟨negative, whole, hcanonical, fraction, exponent⟩ := n
  constructor
  · rintro ⟨rfl, rfl, hleft, rfl, hvalue, rfl⟩
    have hlt := Nat.lt_of_not_le fun h => hlarge h hleft
    rw [hsmall hlt] at hvalue
    obtain rfl : Text.digitsValue 0 whole.1 = k := hvalue
    exact ⟨rfl, hlt, rfl⟩
  · rintro ⟨hnatural, hlt, rfl⟩
    match negative, fraction, exponent with
    | false, none, none =>
      obtain rfl := Option.some.inj hnatural
      rw [hsmall hlt]
      exact ⟨rfl, rfl, rfl, rfl, rfl, rfl⟩

/-! ## Values -/

variable {α : Type}

/-- What a reader of numbers makes of the number that was found. -/
def numberOf (parse : Number → Except Cause α) (x : Outcome Number) : Outcome α :=
  readOn x fun n rest =>
    match parse n with
    | .ok value => .ok (value, rest)
    | .error cause => .error (cause.here rest)

theorem numberOf_eq (parse : Number → Except Cause α) (x : Outcome Number) :
    (match x with
      | .error fault => .error fault
      | .ok (n, rest) => match parse n with
        | .ok value => .ok (value, rest)
        | .error cause => .error (cause.here rest)) = numberOf parse x := by
  cases x <;> rfl

theorem numberAs_number (expected : String) (parse : Number → Except Cause α) (gap : Blanks)
    (n : Numeral) (r : List Char) :
    numberAs expected parse (gap.1 ++ ((Value.scalar (.number n)).text ++ r)) =
      numberOf parse (readNumber n.negative (n.magnitude ++ r)) := by
  obtain ⟨d, ds, hmagnitude, hd⟩ := n.magnitude_cons
  rw [numberAs, skipBlanks_text, Value.text, Scalar.text, Numeral.text]
  cases n.negative with
  | true => exact numberOf_eq parse _
  | false =>
    simp only [Bool.false_eq_true, if_false, List.nil_append, hmagnitude, List.cons_append]
    split
    · next h => exact absurd h (ne_cons_of_isDigit hd (by decide))
    · next h => cases h
    · next h =>
      cases h
      rw [if_pos hd]
      exact numberOf_eq parse _

theorem numberAs_other (expected : String) (parse : Number → Except Cause α) (gap : Blanks)
    {v : Value} (hv : ∀ n, v ≠ .scalar (.number n)) (r : List Char) :
    numberAs expected parse (gap.1 ++ (v.text ++ r)) = .error (mismatch expected (v.text ++ r)) := by
  rw [numberAs, skipBlanks_text]
  match v with
  | .scalar .null => rfl
  | .scalar (.boolean true) => rfl
  | .scalar (.boolean false) => rfl
  | .scalar (.string glyphs) => rfl
  | .scalar (.number n) => exact absurd rfl (hv n)
  | .bracketed .list items => rfl
  | .bracketed .object items => rfl

/-- The natural number below a bound that a number is, or why it is none. -/
def naturalOf (expected : String) (bound : Nat) : Number → Except Cause Nat
  | .natural n =>
    if n < bound then .ok n else .error (.invalidValue (.number (.natural n)) expected)
  | .negative n => .error (.invalidValue (.number (.negative n)) expected)
  | n => .error (.invalidType (.number n) expected)

theorem natural_eq (expected : String) (bound : Nat) :
    natural expected bound = numberAs expected (naturalOf expected bound) :=
  rfl

theorem naturalOf_ok_iff {expected : String} {bound : Nat} {n : Number} :
    naturalOf expected bound n = .ok k ↔ n = .natural k ∧ k < bound := by
  cases n with
  | natural n =>
    by_cases hn : n < bound
    · simp only [naturalOf, if_pos hn, Except.ok.injEq, Number.natural.injEq]
      exact ⟨fun h => ⟨h, h ▸ hn⟩, And.left⟩
    · simp only [naturalOf, if_neg hn, Number.natural.injEq]
      exact iff_of_false nofun fun h => hn (h.1 ▸ h.2)
  | negative n => exact iff_of_false nofun nofun
  | floating negative x => exact iff_of_false nofun nofun

theorem Numeral.natural?_filter_iff {n : Numeral} {bound : Nat} :
    n.natural?.filter (fun k => k < bound) = some k ↔ n.natural? = some k ∧ k < bound := by
  rw [Option.filter_eq_some_iff, decide_eq_true_iff]

/-- **A natural number is read for what a value says as one.** -/
theorem natural_means (expected : String) {bound : Nat} (hbound : bound ≤ Word.size64) :
    Means (natural expected bound) (Value.natural? bound) := by
  intro gap v
  rw [natural_eq]
  by_cases hv : ∃ n, v = .scalar (.number n)
  · obtain ⟨n, rfl⟩ := hv
    unfold Takes Value.natural?
    simp only [List.append_assoc, numberAs_number]
    cases hnatural : n.natural?.filter fun k => k < bound with
    | some k =>
      obtain ⟨hk, hlt⟩ := Numeral.natural?_filter_iff.mp hnatural
      have hfound : naturalOf expected bound (.natural k) = .ok k := naturalOf_ok_iff.mpr ⟨rfl, hlt⟩
      refine ⟨Cause.endInValue.here [], fun r hr => ?_⟩
      rw [(readNumber_natural_iff n hr).mpr ⟨hk, Nat.lt_of_lt_of_le hlt hbound, rfl⟩]
      simp only [numberOf, readOn, hfound, orFault, leaving]
    | none =>
      obtain ⟨o, ho⟩ := settles_readNumber n.negative n
      cases o with
      | error fault => exact ⟨fault, fun r hr => by rw [ho r hr]; rfl⟩
      | ok m =>
        cases hm : naturalOf expected bound m with
        | error cause =>
          refine ⟨cause.here [], fun r hr => ?_⟩
          rw [ho r hr]
          simp only [numberOf, readOn, leaving, hm, orFault]
          rfl
        | ok k =>
          obtain ⟨rfl, hlt⟩ := naturalOf_ok_iff.mp hm
          have hend : Delimits [] := by simp [Delimits]
          obtain ⟨hk, -, -⟩ := (readNumber_natural_iff n hend).mp (ho [] hend)
          rw [Numeral.natural?_filter_iff.mpr ⟨hk, hlt⟩] at hnatural
          cases hnatural
  · obtain ⟨fault, hfault⟩ := settles_mismatch expected v
    refine ⟨fault, fun r hr => ?_⟩
    have hnone : v.natural? bound = none := by
      unfold Value.natural?
      split
      · exact absurd ⟨_, rfl⟩ hv
      · rfl
    rw [List.append_assoc, numberAs_other _ _ gap (not_exists.mp hv), hfault r hr, hnone]
    rfl

end CredentialRelay.Json
