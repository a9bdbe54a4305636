import CredentialRelay.Number.Word
import CredentialRelay.Text.Quoted
import CredentialRelay.Text.Split
import CredentialRelay.Url.Percent
import CredentialRelay.Url.Punycode

/-!
# Hosts

A host is a name or an address. A name whose last label is a number has to be an address of four
bytes; one in brackets is an address of eight groups.

* Names are percent-decoded and put into lower case; some characters may not stand in them.
* The parts of an address of four bytes may be decimal, octal or hexadecimal, and the last part
  fills up the bytes that are missing.
* In an address of eight groups the longest run of zeros, of at least two groups, is left out.

Out of scope: the mapping of characters beyond ASCII, other than lower case and full stops.
-/

namespace CredentialRelay.Url

/-- Whom a URL points to. -/
inductive Host where
  | name (text : String)
  | address4 (value : Nat)
  | address6 (groups : List Nat)
  deriving Repr, DecidableEq

/-- Why a text is no URL. -/
inductive Fault where
  | noScheme
  | emptyHost
  | badPort
  | badName
  | badAddress4
  | badAddress6
  | badCharacter
  deriving Repr, DecidableEq

/-- The wording of each fault. -/
def Fault.message : Fault → String
  | .noScheme => "relative URL without a base"
  | .emptyHost => "empty host"
  | .badPort => "invalid port number"
  | .badName => "invalid international domain name"
  | .badAddress4 => "invalid IPv4 address"
  | .badAddress6 => "invalid IPv6 address"
  | .badCharacter => "invalid domain character"

/-! ## Addresses of four bytes -/

/-- The value of a digit in some base. -/
def digit? (base : Nat) (c : Char) : Option Nat :=
  let value :=
    if c.isDigit then c.toNat - 0x30
    else if 'a' ≤ c ∧ c ≤ 'f' then c.toNat - 0x57
    else if 'A' ≤ c ∧ c ≤ 'F' then c.toNat - 0x37
    else base
  if value < base then some value else none

/-- A number in some base. -/
def number? (base : Nat) (cs : List Char) : Option Nat :=
  cs.foldlM (fun n c => (digit? base c).map fun d => n * base + d) 0

/-- A part of an address. -/
def addressPart? : List Char → Option Nat
  | [] => none
  | '0' :: 'x' :: rest => number? 16 rest
  | '0' :: 'X' :: rest => number? 16 rest
  | '0' :: c :: rest => number? 8 (c :: rest)
  | cs => number? 10 cs

/-- The labels of a name, without an empty one at the end. -/
def labels (cs : List Char) : List (List Char) :=
  let all := Text.splitAll '.' cs
  if 1 < all.length ∧ all.getLast? = some [] then all.dropLast else all

/-- Whether the last label of a name is a number. -/
def endsInNumber (cs : List Char) : Bool :=
  match (labels cs).getLast? with
  | some last => (!last.isEmpty && last.all Char.isDigit) || (addressPart? last).isSome
  | none => false

/-- Reads an address of four bytes. -/
def address4 (cs : List Char) : Except Fault Nat :=
  let parts := labels cs
  match parts.mapM addressPart? with
  | none => .error .badAddress4
  | some numbers =>
    let leading := numbers.dropLast
    let last := numbers.getLastD 0
    if 4 < parts.length ∨ numbers.any (fun n => decide (Word.size32 ≤ n)) = true ∨
        Nat.pow 256 (4 - leading.length) ≤ last ∨
        leading.any (fun n => decide (256 ≤ n)) = true then
      .error .badAddress4
    else
      .ok (leading.foldl (fun n part => n * 256 + part) 0 * Nat.pow 256 (4 - leading.length) + last)

/-- An address of four bytes. -/
def showAddress4 (value : Nat) : String :=
  ".".intercalate
    ([value / 0x1000000, value / 0x10000 % 256, value / 0x100 % 256, value % 256].map toString)

/-! ## Addresses of eight groups -/

/-- Reads up to four hexadecimal digits. -/
def group (cs : List Char) : Nat × List Char :=
  let digits := (cs.take 4).takeWhile fun c => (digit? 16 c).isSome
  ((number? 16 digits).getD 0, cs.drop digits.length)

/-- Reads the four bytes that may end an address, as two groups. -/
def trailingBytes? (cs : List Char) : Option (List Nat) :=
  let parts := Text.splitAll '.' cs
  let byte? (part : List Char) : Option Nat :=
    if part.isEmpty || (1 < part.length && part.head? == some '0') then none
    else (number? 10 part).bind fun n => if n < 256 then some n else none
  match parts.mapM byte? with
  | some [a, b, c, d] => some [a * 256 + b, c * 256 + d]
  | _ => none

/-- Reads the groups of an address: those before the gap and, if there is a gap, those behind it,
both backwards. -/
def groups? : (fuel : Nat) → (before : List Nat) → (behind : Option (List Nat)) → List Char →
    Option (List Nat × Option (List Nat))
  | 0, _, _, _ => none
  | fuel + 1, before, behind, cs =>
    let add (values : List Nat) : List Nat × Option (List Nat) :=
      match behind with
      | none => (values ++ before, none)
      | some behind => (before, some (values ++ behind))
    match cs with
    | [] => some (before, behind)
    | ':' :: rest => if behind.isSome then none else groups? fuel before (some []) rest
    | cs =>
      let (value, rest) := group cs
      match rest with
      | '.' :: _ => (trailingBytes? cs).map fun bytes => add bytes.reverse
      | ':' :: [] => none
      | ':' :: rest =>
        let (before, behind) := add [value]
        groups? fuel before behind rest
      | [] => some (add [value])
      | _ => none

/-- Reads an address of eight groups. -/
def address6 (cs : List Char) : Except Fault (List Nat) :=
  let start : Option (List Char) :=
    match cs with
    | ':' :: ':' :: rest => some (':' :: rest)
    | ':' :: _ => none
    | [] => none
    | cs => some cs
  match start.bind (groups? (cs.length + 1) [] none) with
  | some (before, none) => if before.length = 8 then .ok before.reverse else .error .badAddress6
  | some (before, some behind) =>
    let given := before.length + behind.length
    if given < 8 then .ok (before.reverse ++ List.replicate (8 - given) 0 ++ behind.reverse)
    else .error .badAddress6
  | none => .error .badAddress6

/-- How many zeros the groups begin with. -/
def zeroRun (groups : List Nat) : Nat :=
  (groups.takeWhile (· == 0)).length

/-- Where the longest run of zeros begins and how long it is, counted on from `index`. -/
def longestRun : (index : Nat) → List Nat → Nat × Nat
  | index, [] => (index, 0)
  | index, g :: gs =>
    let here := zeroRun (g :: gs)
    let (start, size) := longestRun (index + 1) gs
    if size ≤ here then (index, here) else (start, size)

/-- An address of eight groups. -/
def showAddress6 (groups : List Nat) : String :=
  let hex (gs : List Nat) : String :=
    ":".intercalate (gs.map fun g => String.ofList (Text.hexDigits g))
  let (start, size) := longestRun 0 groups
  if size < 2 then hex groups
  else hex (groups.take start) ++ "::" ++ hex (groups.drop (start + size))

/-! ## Hosts -/

/-- The characters that may not stand in a name. -/
def isForbidden (c : Char) : Bool :=
  isControl c ||
    [' ', '#', '%', '/', ':', '<', '>', '?', '@', '[', '\\', ']', '^', '\x60', '\x7b', '|',
      '\x7d'].contains c

/-- Whether a character is a full stop of another script. -/
def isFullStop (c : Char) : Bool :=
  c == '\u3002' || c == '\uff0e' || c == '\uff61'

/-- A name as it is sent. -/
def normalName (cs : List Char) : List Char :=
  let stops := (Text.lowercaseFrom [] cs).map fun c => if isFullStop c then '.' else c
  ['.'].intercalate ((Text.splitAll '.' stops).map Punycode.encodeLabel)

/-- Reads the host of a URL with a special scheme. -/
def specialHost (cs : List Char) : Except Fault Host :=
  match cs with
  | '[' :: rest =>
    if rest.getLast? = some ']' then (address6 rest.dropLast).map .address6
    else .error .badAddress6
  | cs =>
    match Text.Utf8.decode (percentDecodeChars cs) with
    | .error _ => .error .badName
    | .ok decoded =>
      let name := normalName decoded.toList
      if name.any isForbidden then .error .badName
      else if name.isEmpty then .error .emptyHost
      else if endsInNumber name then (address4 name).map .address4
      else .ok (.name (String.ofList name))

/-- Reads the host of a URL with any other scheme. -/
def plainHost (cs : List Char) : Except Fault Host :=
  match cs with
  | '[' :: rest =>
    if rest.getLast? = some ']' then (address6 rest.dropLast).map .address6
    else .error .badAddress6
  | cs =>
    if cs.any fun c => isForbidden c && !isControl c && c != '%' || c == '\x00' then
      .error .badCharacter
    else .ok (.name (String.ofList (percentEncode isControl cs)))

/-- A host as it is written. -/
def Host.render : Host → String
  | .name text => text
  | .address4 value => showAddress4 value
  | .address6 groups => "[" ++ showAddress6 groups ++ "]"

end CredentialRelay.Url
