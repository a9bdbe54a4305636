import CredentialRelay.Number.Word

/-!
# Binary floating-point numbers

Nonnegative numbers with a mantissa of 53 bits, computed exactly: every operation rounds its exact
result once, to the nearest such number and to the even mantissa on a tie.

* A number is `mantissa · 2 ^ exponent` with `-1074 ≤ exponent`. A mantissa below `2 ^ 52` occurs
  with the least exponent only.
* A result that rounds to `2 ^ 1024` or more is no number.
-/

namespace CredentialRelay

/-- A nonnegative binary floating-point number, `mantissa · 2 ^ exponent`. -/
structure Binary64 where
  mantissa : Nat
  exponent : Int
  deriving Repr, DecidableEq

namespace Binary64

/-- The exponent of the least positive number. -/
def minExponent : Int := -1074

/-- The quotient of `num` and `den`, to the nearest whole number and to the even one on a tie. -/
def roundQuotient (num den : Nat) : Nat :=
  let q := num / den
  let r := num % den
  if 2 * r < den then q
  else if den < 2 * r then q + 1
  else if q % 2 = 0 then q
  else q + 1

/-- `2 ^ k` as a fraction. -/
def powerOfTwo (k : Int) : Nat × Nat :=
  if 0 ≤ k then (Nat.pow 2 k.toNat, 1) else (1, Nat.pow 2 (-k).toNat)

/-- The greatest `k` with `2 ^ k ≤ num / den`, for positive `num` and `den`. -/
def floorLog2 (num den : Nat) : Int :=
  let k : Int := (num.log2 : Int) - (den.log2 : Int)
  let (p, q) := powerOfTwo k
  if p * den ≤ num * q then k else k - 1

/-- The number nearest to `num / den`, if there is one that is not too large. -/
def ofQuotient? (num den : Nat) : Option Binary64 :=
  if num = 0 ∨ den = 0 then some ⟨0, minExponent⟩
  else
    let exponent := max (floorLog2 num den - 52) minExponent
    let (p, q) := powerOfTwo exponent
    let mantissa := roundQuotient (num * q) (den * p)
    let x : Binary64 :=
      if mantissa = Word.size53 then ⟨Word.size52, exponent + 1⟩ else ⟨mantissa, exponent⟩
    if 971 < x.exponent then none else some x

/-- The value as a fraction. -/
def toQuotient (x : Binary64) : Nat × Nat :=
  let (p, q) := powerOfTwo x.exponent
  (x.mantissa * p, q)

/-- Whether the number is zero. -/
def isZero (x : Binary64) : Bool :=
  x.mantissa == 0

/-- The number nearest to a whole number. -/
def ofNat? (n : Nat) : Option Binary64 :=
  ofQuotient? n 1

/-- The product, if it is not too large. -/
def mul? (x y : Binary64) : Option Binary64 :=
  let (a, b) := x.toQuotient
  let (c, d) := y.toQuotient
  ofQuotient? (a * c) (b * d)

/-- The quotient, if it is not too large. -/
def div? (x y : Binary64) : Option Binary64 :=
  let (a, b) := x.toQuotient
  let (c, d) := y.toQuotient
  ofQuotient? (a * d) (b * c)

end Binary64

end CredentialRelay
