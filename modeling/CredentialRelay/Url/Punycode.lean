import CredentialRelay.Text.Lowercase

/-!
# Host names beyond ASCII

A label of a host name that holds characters beyond ASCII is written with the mark `xn--` and its
Punycode: the ASCII characters first, then, for every other character in ascending order, how far
the insertion point moved since the last one.

Labels are put into lower case first, and three other full stops count as the ASCII one.
-/

namespace CredentialRelay.Url.Punycode

/-- The character of a digit of base 36. -/
def digitChar (d : Nat) : Char :=
  if d < 26 then Char.ofNat (0x61 + d) else Char.ofNat (0x16 + d)

/-- The value from which on a digit at position `k` is not the last one. -/
def threshold (k bias : Nat) : Nat :=
  if k ≤ bias then 1 else if bias + 26 ≤ k then 26 else k - bias

/-- A distance in digits of base 36 with varying thresholds. -/
def encodeDistance (bias : Nat) : (fuel k q : Nat) → List Char
  | 0, _, _ => []
  | fuel + 1, k, q =>
    let t := threshold k bias
    if q < t then [digitChar q]
    else digitChar (t + (q - t) % (36 - t)) ::
      encodeDistance bias fuel (k + 36) ((q - t) / (36 - t))

/-- Halves a distance by parts of 35 until it is small, counting the positions. -/
def settle : (fuel delta k : Nat) → Nat × Nat
  | 0, delta, k => (delta, k)
  | fuel + 1, delta, k => if 455 < delta then settle fuel (delta / 35) (k + 36) else (delta, k)

/-- The bias after a distance. -/
def adapt (delta count : Nat) (first : Bool) : Nat :=
  let delta := if first then delta / 700 else delta / 2
  let (delta, k) := settle 32 (delta + delta / count) 0
  k + 36 * delta / (delta + 38)

/-- How far the encoding has come. -/
structure Progress where
  written : List Char
  delta : Nat
  bias : Nat
  done : Nat

/-- Passes one character of the label while the characters of value `m` are being inserted. -/
def pass (basic m : Nat) (p : Progress) (c : Char) : Progress :=
  if c.toNat < m then { p with delta := p.delta + 1 }
  else if c.toNat = m then
    ⟨p.written ++ encodeDistance p.bias 32 36 p.delta, 0,
      adapt p.delta (p.done + 1) (p.done == basic), p.done + 1⟩
  else p

/-- Inserts the characters of the given values, which ascend. -/
def insertAll (label : List Char) (basic : Nat) : List Nat → (n : Nat) → Progress → Progress
  | [], _, p => p
  | m :: rest, n, p =>
    let p := { p with delta := p.delta + (m - n) * (p.done + 1) }
    let p := label.foldl (pass basic m) p
    insertAll label basic rest (m + 1) { p with delta := p.delta + 1 }

/-- The Punycode of a label. -/
def encode (label : List Char) : List Char :=
  let ascii := label.filter fun c => decide (c.toNat < 0x80)
  let others := (label.filter fun c => decide (0x80 ≤ c.toNat)).map Char.toNat
  let values := (others.mergeSort).eraseDups
  let start : Progress := ⟨if ascii.isEmpty then [] else ascii ++ ['-'], 0, 72, ascii.length⟩
  (insertAll label ascii.length values 128 start).written

/-- A label as it is sent. -/
def encodeLabel (label : List Char) : List Char :=
  if label.all fun c => decide (c.toNat < 0x80) then label
  else ['x', 'n', '-', '-'] ++ encode label

end CredentialRelay.Url.Punycode
