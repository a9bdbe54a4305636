/-!
# Reading bounded natural numbers

A number is a run of the ten digits, with one plus sign allowed in front, and has to stay below
a bound. The characters are read from the left and the first fault decides, so a number that is
too large is reported even when a foreign character follows.
-/

namespace CredentialRelay.Text

/-- Why a text is not a natural number below the bound. -/
inductive NaturalError where
  /-- There is nothing to read. -/
  | empty
  /-- A character is none of the ten digits. -/
  | invalidDigit
  /-- The number reaches the bound. -/
  | tooLarge
  deriving Repr, DecidableEq

/-- The wording of each fault. -/
def NaturalError.message : NaturalError → String
  | .empty => "cannot parse integer from empty string"
  | .invalidDigit => "invalid digit found in string"
  | .tooLarge => "number too large to fit in target type"

/-- The value of one of the ten digits. -/
def digitValue (c : Char) : Nat :=
  c.toNat - '0'.toNat

/-- The number written by `cs`, read on from the digits that gave `value`. -/
def digitsValue (value : Nat) (cs : List Char) : Nat :=
  cs.foldl (fun value c => value * 10 + digitValue c) value

/-- Reads digits on from `value`, staying below `bound`. -/
def readDigits (bound : Nat) : Nat → List Char → Except NaturalError Nat
  | value, [] => .ok value
  | value, c :: cs =>
    if c.isDigit then
      let value := value * 10 + digitValue c
      if value < bound then readDigits bound value cs else .error .tooLarge
    else .error .invalidDigit

/-- Reads a natural number below `bound`. -/
def readNatural (bound : Nat) : List Char → Except NaturalError Nat
  | [] => .error .empty
  | ['+'] => .error .invalidDigit
  | '+' :: cs => readDigits bound 0 cs
  | cs => readDigits bound 0 cs

theorem digitsValue_cons (value : Nat) (c : Char) (cs : List Char) :
    digitsValue value (c :: cs) = digitsValue (value * 10 + digitValue c) cs := by
  simp only [digitsValue, List.foldl_cons]

/-- A number does not become smaller by more digits. -/
theorem le_digitsValue (value : Nat) (cs : List Char) : value ≤ digitsValue value cs := by
  induction cs generalizing value with
  | nil => exact Nat.le_refl value
  | cons c cs ih => exact Nat.le_trans (by omega) (ih (value * 10 + digitValue c))

/-- A run of digits whose value is below the bound is read as that value. -/
theorem readDigits_eq_ok_iff {bound value n : Nat} {cs : List Char} (h : value < bound) :
    readDigits bound value cs = .ok n ↔
      cs.all Char.isDigit = true ∧ digitsValue value cs = n ∧ n < bound := by
  induction cs generalizing value with
  | nil => simp [readDigits, digitsValue]; rintro rfl; exact h
  | cons c cs ih =>
    simp only [readDigits, List.all_cons, Bool.and_eq_true]
    split
    · next hd =>
      split
      · next hb => rw [ih hb]; simp [hd, digitsValue]
      · next hb =>
        simp only [hd, true_and, reduceCtorEq, false_iff, not_and]
        intro _ hv
        have hgrown := le_digitsValue (value * 10 + digitValue c) cs
        rw [digitsValue_cons] at hv
        omega
    · next hd => simp [hd]

end CredentialRelay.Text
