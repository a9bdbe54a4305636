import CredentialRelay.Text.Utf8

/-!
# Percent-encoding

A character that may not stand in a part of a URL is written as its UTF-8 bytes, each as a percent
sign with two hexadecimal digits. Characters beyond ASCII are always written so; which ASCII
characters are depends on the part.

Results:
* `percentEncode_ascii`: what is encoded is ASCII.
* `percentEncode_eq_self`: a text of characters that may stand is left alone.
-/

namespace CredentialRelay.Url

/-- The control characters. -/
def isControl (c : Char) : Bool :=
  decide (c.toNat < 0x20) || c.toNat == 0x7f

/-- What is encoded in a fragment. -/
def inFragmentSet (c : Char) : Bool :=
  isControl c || [' ', '"', '<', '>', '\x60'].contains c

/-- What is encoded in a path. -/
def inPathSet (c : Char) : Bool :=
  inFragmentSet c || ['#', '?', '\x7b', '\x7d'].contains c

/-- What is encoded in the name and the password of a user. -/
def inUserSet (c : Char) : Bool :=
  inPathSet c || ['/', ':', ';', '=', '@', '[', '\\', ']', '^', '|'].contains c

/-- What is encoded in a query. -/
def inQuerySet (c : Char) : Bool :=
  isControl c || [' ', '"', '#', '<', '>'].contains c

/-- What is encoded in the query of a URL with a special scheme. -/
def inSpecialQuerySet (c : Char) : Bool :=
  inQuerySet c || c == '\''

/-- An upper-case hexadecimal digit. -/
def upperHexDigit (n : Nat) : Char :=
  if n < 10 then Char.ofNat (0x30 + n) else Char.ofNat (0x37 + n)

/-- A byte as a percent sign with two digits. -/
def percentByte (b : UInt8) : List Char :=
  ['%', upperHexDigit (b.toNat / 16), upperHexDigit (b.toNat % 16)]

/-- A character, encoded if it is in the set or beyond ASCII. -/
def percentEncodeChar (set : Char → Bool) (c : Char) : List Char :=
  if c.toNat < 0x80 ∧ set c = false then [c]
  else (String.utf8EncodeChar c).flatMap percentByte

/-- A text with the characters of the set and those beyond ASCII encoded. -/
def percentEncode (set : Char → Bool) (cs : List Char) : List Char :=
  cs.flatMap (percentEncodeChar set)

/-- The value of a hexadecimal digit. -/
def hexByte? (b : UInt8) : Option Nat :=
  if 48 ≤ b ∧ b ≤ 57 then some (b.toNat - 48)
  else if 65 ≤ b ∧ b ≤ 70 then some (b.toNat - 55)
  else if 97 ≤ b ∧ b ≤ 102 then some (b.toNat - 87)
  else none

/-- The bytes that a text stands for; a percent sign without two digits stands for itself. -/
def percentDecode : List UInt8 → List UInt8
  | 37 :: a :: b :: rest =>
    match hexByte? a, hexByte? b with
    | some x, some y => UInt8.ofNat (16 * x + y) :: percentDecode rest
    | _, _ => 37 :: percentDecode (a :: b :: rest)
  | b :: rest => b :: percentDecode rest
  | [] => []

/-- The bytes that a list of characters stands for. -/
def percentDecodeChars (cs : List Char) : List UInt8 :=
  percentDecode (Text.Utf8.encode cs)

/-! ## Small laws -/

/-- A text of ASCII characters outside the set is left alone. -/
theorem percentEncode_eq_self {set : Char → Bool} {cs : List Char}
    (h : ∀ c ∈ cs, c.toNat < 0x80 ∧ set c = false) : percentEncode set cs = cs := by
  induction cs with
  | nil => rfl
  | cons c cs ih =>
    have hc := h c (by simp)
    have := ih fun d hd => h d (by simp [hd])
    simp only [percentEncode, List.flatMap_cons] at this ⊢
    rw [this]
    simp [percentEncodeChar, hc]

theorem upperHexDigit_ascii {n : Nat} (h : n < 16) : (upperHexDigit n).toNat < 0x80 := by
  have all : ∀ m ∈ List.range 16, (upperHexDigit m).toNat < 0x80 := by decide
  exact all n (List.mem_range.2 h)

/-- What is encoded is ASCII. -/
theorem percentEncode_ascii {set : Char → Bool} {cs : List Char} {c : Char}
    (h : c ∈ percentEncode set cs) : c.toNat < 0x80 := by
  simp only [percentEncode, List.mem_flatMap] at h
  obtain ⟨d, _, hd⟩ := h
  simp only [percentEncodeChar] at hd
  split at hd
  · next hs =>
    simp only [List.mem_singleton] at hd
    exact hd ▸ hs.1
  · simp only [List.mem_flatMap] at hd
    obtain ⟨b, _, hb⟩ := hd
    simp only [percentByte, List.mem_cons, List.not_mem_nil, or_false] at hb
    rcases hb with rfl | rfl | rfl
    · decide
    · exact upperHexDigit_ascii (by have := b.toNat_lt; omega)
    · exact upperHexDigit_ascii (Nat.mod_lt _ (by decide))

end CredentialRelay.Url
