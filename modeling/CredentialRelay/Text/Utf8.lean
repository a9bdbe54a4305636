/-!
# UTF-8

Bytes are cut into pieces: characters, and maximal parts that begin no character. Every way of
reading bytes as text is a view of the pieces.

* `decode` is strict: the first piece that is no character is the error, with the number of bytes
  before it.
* `decodeLossy` never fails: every piece that is no character becomes U+FFFD.
* A sequence is given up at the first byte that cannot continue it, and that byte is read again as
  the start of a new one. A sequence that the end of the input cuts off is told apart.
-/

namespace CredentialRelay.Text.Utf8

/-- A maximal part of a byte sequence that is read as one thing. -/
inductive Piece where
  /-- The bytes of one character. -/
  | char (c : Char)
  /-- `length` bytes that begin no character. -/
  | malformed (length : Nat)
  /-- `length` bytes that begin a character the input ends in. -/
  | truncated (length : Nat)
  deriving Repr, DecidableEq

/-- A character whose first bytes have been read. -/
structure Pending where
  /-- How many bytes are still to come. -/
  need : Nat
  /-- The least byte that may come next. -/
  low : UInt8
  /-- The greatest byte that may come next. -/
  high : UInt8
  /-- The bits read so far. -/
  value : Nat
  /-- How many bytes have been read. -/
  taken : Nat

/-- What a byte at the start of a character begins. -/
inductive Lead where
  /-- It is a piece of its own. -/
  | whole (piece : Piece)
  /-- More bytes have to follow. -/
  | opens (pending : Pending)

/-- The role of `b` as a first byte. The bounds of the second byte leave out overlong forms,
surrogates and values above U+10FFFF. -/
def lead (b : UInt8) : Lead :=
  if b < 0x80 then .whole (.char (Char.ofNat b.toNat))
  else if b < 0xC2 then .whole (.malformed 1)
  else if b < 0xE0 then .opens ⟨1, 0x80, 0xBF, b.toNat - 0xC0, 1⟩
  else if b = 0xE0 then .opens ⟨2, 0xA0, 0xBF, 0, 1⟩
  else if b = 0xED then .opens ⟨2, 0x80, 0x9F, 0xD, 1⟩
  else if b < 0xF0 then .opens ⟨2, 0x80, 0xBF, b.toNat - 0xE0, 1⟩
  else if b = 0xF0 then .opens ⟨3, 0x90, 0xBF, 0, 1⟩
  else if b < 0xF4 then .opens ⟨3, 0x80, 0xBF, b.toNat - 0xF0, 1⟩
  else if b = 0xF4 then .opens ⟨3, 0x80, 0x8F, 4, 1⟩
  else .whole (.malformed 1)

/-- The pieces of a byte sequence, with a character begun before it. -/
def piecesFrom : Option Pending → List UInt8 → List Piece
  | none, [] => []
  | some p, [] => [.truncated p.taken]
  | none, b :: bs =>
    match lead b with
    | .whole piece => piece :: piecesFrom none bs
    | .opens p => piecesFrom (some p) bs
  | some p, b :: bs =>
    if p.low ≤ b ∧ b ≤ p.high then
      let value := p.value * 0x40 + (b.toNat - 0x80)
      if p.need ≤ 1 then .char (Char.ofNat value) :: piecesFrom none bs
      else piecesFrom (some ⟨p.need - 1, 0x80, 0xBF, value, p.taken + 1⟩) bs
    else
      .malformed p.taken ::
        match lead b with
        | .whole piece => piece :: piecesFrom none bs
        | .opens p => piecesFrom (some p) bs

/-- The pieces of a byte sequence. -/
def pieces (bytes : List UInt8) : List Piece :=
  piecesFrom none bytes

/-- How many bytes a piece was read from. -/
def Piece.size : Piece → Nat
  | .char c => c.utf8Size
  | .malformed n => n
  | .truncated n => n

/-- Why bytes are not UTF-8: the first part that is no character, and the bytes before it. -/
inductive Error where
  | malformed (length index : Nat)
  | truncated (index : Nat)
  deriving Repr, DecidableEq

/-- The wording of a fault. -/
def Error.message : Error → String
  | .malformed length index => s!"invalid utf-8 sequence of {length} bytes from index {index}"
  | .truncated index => s!"incomplete utf-8 byte sequence from index {index}"

/-- The characters of pieces that are all characters, or the first other piece, `index` bytes
having come before them. -/
def strictFrom (index : Nat) : List Piece → Except Error (List Char)
  | [] => .ok []
  | .char c :: rest => (strictFrom (index + c.utf8Size) rest).map (c :: ·)
  | .malformed n :: _ => .error (.malformed n index)
  | .truncated _ :: _ => .error (.truncated index)

/-- Reads bytes that have to be UTF-8. -/
def decode (bytes : List UInt8) : Except Error String :=
  (strictFrom 0 (pieces bytes)).map String.ofList

/-- The character shown for a piece when nothing may fail. -/
def Piece.shown : Piece → Char
  | .char c => c
  | .malformed _ => '\uFFFD'
  | .truncated _ => '\uFFFD'

/-- Reads any bytes, with U+FFFD for every part that is no character. -/
def decodeLossy (bytes : List UInt8) : String :=
  String.ofList ((pieces bytes).map Piece.shown)

/-- The bytes of a list of characters. -/
def encode (cs : List Char) : List UInt8 :=
  cs.flatMap String.utf8EncodeChar

/-! ## The two readings agree -/

theorem map_shown_of_strictFrom {index : Nat} {ps : List Piece} {cs : List Char}
    (h : strictFrom index ps = .ok cs) : ps.map Piece.shown = cs := by
  induction ps generalizing index cs with
  | nil => simp_all [strictFrom]
  | cons p ps ih =>
    cases p with
    | char c =>
      simp only [strictFrom] at h
      cases hr : strictFrom (index + c.utf8Size) ps with
      | error e => simp [hr, Except.map] at h
      | ok ds =>
        simp only [hr, Except.map, Except.ok.injEq] at h
        simp [← h, Piece.shown, ih hr]
    | malformed n => simp [strictFrom] at h
    | truncated n => simp [strictFrom] at h

/-- Bytes that are UTF-8 are read alike by both. -/
theorem decodeLossy_of_decode {bytes : List UInt8} {text : String}
    (h : decode bytes = .ok text) : decodeLossy bytes = text := by
  simp only [decode] at h
  cases hs : strictFrom 0 (pieces bytes) with
  | error e => simp [hs, Except.map] at h
  | ok cs =>
    simp only [hs, Except.map, Except.ok.injEq] at h
    rw [decodeLossy, map_shown_of_strictFrom hs, h]

theorem replacement_mem_of_strictFrom_error {index : Nat} {ps : List Piece} {e : Error}
    (h : strictFrom index ps = .error e) : '\uFFFD' ∈ ps.map Piece.shown := by
  induction ps generalizing index e with
  | nil => simp [strictFrom] at h
  | cons p ps ih =>
    cases p with
    | char c =>
      simp only [strictFrom] at h
      cases hr : strictFrom (index + c.utf8Size) ps with
      | error e' => exact List.mem_cons_of_mem _ (ih hr)
      | ok ds => simp [hr, Except.map] at h
    | malformed n => simp [Piece.shown]
    | truncated n => simp [Piece.shown]

/-- Bytes that are not UTF-8 leave a replacement character behind. -/
theorem replacement_mem_of_decode_error {bytes : List UInt8} {e : Error}
    (h : decode bytes = .error e) : '\uFFFD' ∈ (decodeLossy bytes).toList := by
  simp only [decode] at h
  cases hs : strictFrom 0 (pieces bytes) with
  | error e' => simpa [decodeLossy] using replacement_mem_of_strictFrom_error hs
  | ok cs => simp [hs, Except.map] at h

end CredentialRelay.Text.Utf8
