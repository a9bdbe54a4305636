import CredentialRelay.Json.Decoder
import CredentialRelay.Text.Utf8

/-!
# Decoding bytes

A JSON text may come in bytes that are not UTF-8. Only the strings that are read have to be; a string
that is passed over may hold any bytes. A string is judged at its end, so a fault further on in it
comes first.

The text that is read has a mark for every part of the bytes that is no character. Outside of
strings a mark is out of place, a string that is passed over may hold it, and a string that is read
may not. A fault is then taken back to the bytes.
-/

namespace CredentialRelay.Json

open Text.Utf8

/-- What stands for a part of the bytes in the text that is read. A part that is no character is
marked by a character and, behind it, half of a surrogate pair. -/
def marked : Piece → List Char
  | .char c => [c]
  | .malformed _ => ['\uFFFD', '\\', 'u', 'd', 'c', '0', '0']
  | .truncated _ => ['\uFFFD', '\\', 'u', 'd', 'c', '0', '0']

/-- The text that is read for bytes. -/
def markedText (bytes : List UInt8) : String :=
  String.ofList ((pieces bytes).flatMap marked)

/-- Characters that take as many bytes as a part. -/
def filled : Piece → List Char
  | .char c => [c]
  | .malformed n => List.replicate n '?'
  | .truncated n => List.replicate n '?'

/-- The parts that the last `count` characters of the text stand for, and the part before them. -/
def unread (count : Nat) : (before : Option Piece) → List Piece → Option Piece × List Piece
  | before, [] => (before, [])
  | before, p :: ps =>
    if ((p :: ps).flatMap marked).length ≤ count then (before, p :: ps)
    else unread count (some p) ps

/-- A fault with `count` of the parts unread. -/
def Fault.atLast (fault : Fault) (count : Nat) (parts : List Piece) : Fault :=
  { fault with rest := (parts.drop (parts.length - count)).flatMap filled }

/-- The fault of a string that is not UTF-8, of which the parts are unread: it lies at the end of the
string, unless there is another one before. -/
def stringFault (parts : List Piece) : Fault :=
  match readString (parts.map Piece.shown) with
  | .ok (_, rest) => (Cause.invalidCodePoint.here rest).atLast rest.length parts
  | .error fault => fault.atLast fault.rest.length parts

/-- A fault of the text that was read, as one of the bytes in these parts. -/
def Fault.inBytes (fault : Fault) (parts : List Piece) : Fault :=
  match fault.cause, unread fault.rest.length none parts with
  | .loneSurrogate, (some (.malformed _), rest) => stringFault rest
  | .loneSurrogate, (some (.truncated _), rest) => stringFault rest
  | _, (_, rest) => { fault with rest := rest.flatMap filled }

/-- Reads bytes that hold one value and nothing else. -/
def decodeBytes {α : Type} (decoder : Decoder α) (bytes : List UInt8) : Except String α :=
  (decode decoder (markedText bytes)).mapError fun fault =>
    (fault.inBytes (pieces bytes)).message (String.ofList ((pieces bytes).flatMap filled))

end CredentialRelay.Json
