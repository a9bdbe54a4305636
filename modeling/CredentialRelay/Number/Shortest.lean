import CredentialRelay.Number.Binary64
import CredentialRelay.Number.Word

/-!
# The shortest decimal of a binary number

`digits` finds the decimal with the fewest digits that rounds back to a number, and of those the
nearest to it. `render` lays it out: positionally while the first digit stands from five places
after the point to sixteen before it, with an exponent otherwise.

* The numbers that round to `x` lie between the midpoints to its two neighbours; the midpoints
  belong to them when the mantissa is even.
* If a grid of decimals has a point between the midpoints, so does one of the two points of the
  grid around `x`, so only those are tried.
-/

namespace CredentialRelay.Binary64

/-- `10 ^ k` as a fraction. -/
def powerOfTen (k : Int) : Nat × Nat :=
  if 0 ≤ k then (Nat.pow 10 k.toNat, 1) else (1, Nat.pow 10 (-k).toNat)

/-- The least `j` up to `fuel` with `den ≤ num · 10 ^ j`, counted on from `j`. -/
def leadingZeros (num den : Nat) : (fuel j : Nat) → Nat
  | 0, j => j
  | fuel + 1, j => if den ≤ num * Nat.pow 10 j then j else leadingZeros num den fuel (j + 1)

/-- The greatest `k` with `10 ^ k ≤ num / den`, for a positive fraction above `10 ^ -400`. -/
def floorLog10 (num den : Nat) : Int :=
  if den ≤ num then ((Nat.toDigits 10 (num / den)).length : Int) - 1
  else - (leadingZeros num den 400 0 : Int)

/-- The midpoints to the two neighbours of `x`, as fractions. -/
def midpoints (x : Binary64) : (Nat × Nat) × (Nat × Nat) :=
  let (p, q) := powerOfTwo (x.exponent - 2)
  let lower := if x.mantissa = Word.size52 ∧ minExponent < x.exponent then 1 else 2
  (((4 * x.mantissa - lower) * p, q), ((4 * x.mantissa + 2) * p, q))

/-- Whether the decimal `d · 10 ^ k` rounds to `x`. -/
def roundsTo (x : Binary64) (d : Nat) (k : Int) : Bool :=
  let ((a, b), (c, e)) := x.midpoints
  let (p, q) := powerOfTen k
  let n := d * p
  if x.mantissa % 2 = 0 then decide (a * q ≤ n * b) && decide (n * e ≤ c * q)
  else decide (a * q < n * b) && decide (n * e < c * q)

/-- The decimal of `count` digits nearest to `x`, if it rounds to `x`. -/
def onGrid? (x : Binary64) (count : Nat) : Option (Nat × Int) :=
  let (a, b) := x.toQuotient
  let k := floorLog10 a b - (count : Int) + 1
  let (p, q) := powerOfTen k
  let below := a * q / (b * p)
  let rest := a * q % (b * p)
  let above := below + 1
  match roundsTo x below k, roundsTo x above k with
  | true, true =>
    if 2 * rest < b * p ∨ (2 * rest = b * p ∧ below % 2 = 0) then some (below, k)
    else some (above, k)
  | true, false => some (below, k)
  | false, true => some (above, k)
  | false, false => none

/-- The first grid from `count` digits on that has a decimal which rounds to `x`. -/
def digitsFrom (x : Binary64) : (fuel count : Nat) → Nat × Int
  | 0, _ => (0, 0)
  | fuel + 1, count => (onGrid? x count).getD (digitsFrom x fuel (count + 1))

/-- The shortest decimal that rounds to `x`: its digits as a number, and their power of ten. -/
def digits (x : Binary64) : Nat × Int :=
  if x.isZero then (0, 0) else digitsFrom x 17 1

/-- A decimal with its digits `cs` and the place of the first digit, laid out. -/
def layout (cs : List Char) (place : Int) : List Char :=
  if -5 ≤ place ∧ place ≤ 15 then
    if place < 0 then ['0', '.'] ++ List.replicate (-place - 1).toNat '0' ++ cs
    else
      let whole := place.toNat + 1
      if cs.length ≤ whole then cs ++ List.replicate (whole - cs.length) '0' ++ ['.', '0']
      else cs.take whole ++ '.' :: cs.drop whole
  else
    let sign := if place < 0 then '-' else '+'
    let size := Nat.toDigits 10 place.natAbs
    let shown := if size.length < 2 then '0' :: size else size
    match cs with
    | [c] => [c, 'e', sign] ++ shown
    | c :: rest => c :: '.' :: rest ++ ['e', sign] ++ shown
    | [] => []

/-- The text of a number with its sign. -/
def render (negative : Bool) (x : Binary64) : String :=
  let sign := if negative then ['-'] else []
  if x.isZero then String.ofList (sign ++ ['0', '.', '0'])
  else
    let (d, k) := x.digits
    let all := Nat.toDigits 10 d
    let cs := (all.reverse.dropWhile (· == '0')).reverse
    String.ofList (sign ++ layout cs (k + (all.length : Int) - 1))

end CredentialRelay.Binary64
