/-!
# Base64

Decoding of the standard alphabet with canonical padding: groups of four symbols, the last one
filled up with `=`, and no bits left over in the last symbol.

* Groups are read from the left and the first fault decides, except that a single foreign byte at
  the very end is reported before anything else.
* A pad inside the text counts as a foreign byte; in the last group the first pad is blamed when a
  symbol follows it.
-/

namespace CredentialRelay.Text.Base64

/-- Why bytes are not Base64. -/
inductive Error where
  /-- The byte at `offset` is no symbol, or a pad where none may stand. -/
  | invalidByte (offset : Nat) (byte : UInt8)
  /-- One symbol stands alone at the end. -/
  | invalidLength (length : Nat)
  /-- The last symbol has bits that no byte takes. -/
  | invalidLastSymbol (offset : Nat) (byte : UInt8)
  /-- The last group is not filled up. -/
  | invalidPadding
  deriving Repr, DecidableEq

/-- The wording of a fault. -/
def Error.message : Error → String
  | .invalidByte offset byte => s!"Invalid symbol {byte}, offset {offset}."
  | .invalidLength length => s!"Invalid input length: {length}"
  | .invalidLastSymbol offset byte => s!"Invalid last symbol {byte}, offset {offset}."
  | .invalidPadding => "Invalid padding"

/-- The pad, `=`. -/
def pad : UInt8 := 61

/-- The six bits of a symbol. -/
def sixBits? (b : UInt8) : Option Nat :=
  if 65 ≤ b ∧ b ≤ 90 then some (b.toNat - 65)
  else if 97 ≤ b ∧ b ≤ 122 then some (b.toNat - 97 + 26)
  else if 48 ≤ b ∧ b ≤ 57 then some (b.toNat - 48 + 52)
  else if b = 43 then some 62
  else if b = 47 then some 63
  else none

/-- The six bits of the symbol at `offset`. -/
def sixBits (offset : Nat) (b : UInt8) : Except Error Nat :=
  match sixBits? b with
  | some n => .ok n
  | none => .error (.invalidByte offset b)

/-- The three bytes of a number of 24 bits. -/
def threeBytes (n : Nat) : List UInt8 :=
  [UInt8.ofNat (n / 0x10000), UInt8.ofNat (n / 0x100), UInt8.ofNat n]

/-- The symbols of the last group and the number of its pads, with `position` bytes of the group
and the symbols `bits` (backwards) read; `firstPad` is where its first pad stood. -/
def scanLast (index : Nat) :
    (position : Nat) → (bits : List Nat) → (firstPad : Option Nat) → (pads : Nat) →
      List UInt8 → Except Error (List Nat × Nat)
  | _, bits, _, pads, [] => .ok (bits.reverse, pads)
  | position, bits, firstPad, pads, b :: bs =>
    if b = pad then
      if position < 2 then .error (.invalidByte (index + position) b)
      else scanLast index (position + 1) bits (some (firstPad.getD position)) (pads + 1) bs
    else
      match firstPad with
      | some p => .error (.invalidByte (index + p) pad)
      | none => do
        let n ← sixBits (index + position) b
        scanLast index (position + 1) (n :: bits) none pads bs

/-- The bytes of the last group, which begins at `index` and holds at most four bytes. -/
def decodeLast (index : Nat) (group : List UInt8) : Except Error (List UInt8) := do
  let (bits, pads) ← scanLast index 0 [] none 0 group
  if group.isEmpty then return []
  if bits.length < 2 then throw (.invalidLength (index + bits.length))
  if (pads + bits.length) % 4 ≠ 0 then throw .invalidPadding
  let number := (bits ++ List.replicate (4 - bits.length) 0).foldl (fun n b => n * 64 + b) 0
  let count := bits.length * 6 / 8
  if number % Nat.pow 2 (24 - 8 * count) ≠ 0 then
    throw (.invalidLastSymbol (index + bits.length - 1) (group.getD (bits.length - 1) pad))
  return (threeBytes number).take count

/-- The bytes of the groups from `index` on. -/
def decodeFrom (index : Nat) : List UInt8 → Except Error (List UInt8)
  | a :: b :: c :: d :: rest =>
    if rest.isEmpty then decodeLast index [a, b, c, d]
    else do
      let w ← sixBits index a
      let x ← sixBits (index + 1) b
      let y ← sixBits (index + 2) c
      let z ← sixBits (index + 3) d
      let bytes ← decodeFrom (index + 4) rest
      return threeBytes (((w * 64 + x) * 64 + y) * 64 + z) ++ bytes
  | group => decodeLast index group

/-- The bytes that a Base64 text stands for. -/
def decode (text : List UInt8) : Except Error (List UInt8) :=
  match text.getLast? with
  | some last =>
    if text.length % 4 = 1 ∧ last ≠ pad ∧ sixBits? last = none then
      .error (.invalidByte (text.length - 1) last)
    else decodeFrom 0 text
  | none => .ok []

end CredentialRelay.Text.Base64
