import CredentialRelay.Url.Basic

/-!
# Reading URLs

A text is read as a URL of its own, or with respect to another one that it may leave parts to.

* Control characters and spaces at both ends are dropped, and tabs and line ends everywhere.
* With a special scheme, backslashes count as slashes, the number of slashes before the host does
  not matter, and a host is required.
* Dot segments, however their dots are written, are resolved while the path is read.

Results:
* `addSegment_plain`: a segment that is no dot segment is added at the end of a path.
-/

namespace CredentialRelay.Url

/-- Whether a character is dropped wherever it stands. -/
def isDropped (c : Char) : Bool :=
  c == '\t' || c == '\n' || c == '\r'

/-- The text that is read. -/
def cleaned (cs : List Char) : List Char :=
  let trim (cs : List Char) : List Char := cs.dropWhile fun c => decide (c.toNat ≤ 0x20)
  (trim (trim cs).reverse).reverse.filter fun c => !isDropped c

/-- The scheme in lower case, and the text behind its colon. -/
def readScheme? (cs : List Char) : Option (String × List Char) :=
  let isPart (c : Char) : Bool := c.isAlphanum || c == '+' || c == '-' || c == '.'
  match cs.dropWhile isPart with
  | ':' :: rest =>
    if (cs.head?.map Char.isAlpha).getD false then
      some (String.ofList ((cs.takeWhile isPart).map Char.toLower), rest)
    else none
  | _ => none

/-! ## Paths -/

/-- Whether a character separates the segments of a path. -/
def isSlash (special : Bool) (c : Char) : Bool :=
  c == '/' || (special && c == '\\')

/-- Whether a character ends a path. -/
def endsPath (c : Char) : Bool :=
  c == '?' || c == '#'

/-- Whether a segment stands for its own directory. -/
def isSingleDot (segment : List Char) : Bool :=
  let lower := segment.map Char.toLower
  [['.'], ['%', '2', 'e']].contains lower

/-- Whether a segment stands for the directory above. -/
def isDoubleDot (segment : List Char) : Bool :=
  let lower := segment.map Char.toLower
  [['.', '.'], ['.', '%', '2', 'e'], ['%', '2', 'e', '.'], ['%', '2', 'e', '%', '2', 'e']].contains
    lower

/-- Whether a segment names a drive, which is not left by going up. -/
def isDrive : List Char → Bool
  | [c, d] => c.isAlpha && (d == ':' || d == '|')
  | _ => false

/-- The segments without the last one. -/
def goUp (segments : List (List Char)) : List (List Char) :=
  match segments.getLast? with
  | some last => if isDrive last then segments else segments.dropLast
  | none => []

/-- Adds a segment to a path; `last` tells whether nothing follows it. -/
def addSegment (segments : List (List Char)) (segment : List Char) (last : Bool) :
    List (List Char) :=
  if isDoubleDot segment then
    if last then goUp segments ++ [[]] else goUp segments
  else if isSingleDot segment then
    if last then segments ++ [[]] else segments
  else segments ++ [segment]

/-- Adds segments to a path. -/
def addSegments : List (List Char) → List (List Char) → List (List Char)
  | segments, [] => segments
  | segments, [segment] => addSegment segments segment true
  | segments, segment :: rest => addSegments (addSegment segments segment false) rest

/-- Reads segments and adds them to a path. -/
def readPath (special : Bool) (start : List (List Char)) (cs : List Char) : List (List Char) :=
  let marked := cs.map fun c => if isSlash special c then '/' else c
  addSegments start ((Text.splitAll '/' marked).map (percentEncode inPathSet))

/-- A segment that is no dot segment is added at the end of a path. -/
theorem addSegment_plain {segments : List (List Char)} {segment : List Char} {last : Bool}
    (hd : isDoubleDot segment = false) (hs : isSingleDot segment = false) :
    addSegment segments segment last = segments ++ [segment] := by
  simp [addSegment, hd, hs]

/-- The path of some segments. -/
def Path.ofSegments (segments : List (List Char)) : Path :=
  .segments (segments.map String.ofList)

/-! ## What follows a path -/

/-- Reads the fragment. -/
def readFragment : List Char → Option String
  | '#' :: rest => some (String.ofList (percentEncode inFragmentSet rest))
  | _ => none

/-- Reads the query and the fragment into a URL. -/
def withTail (url : Url) (cs : List Char) : Url :=
  match cs with
  | '?' :: rest =>
    let set := if isSpecial url.scheme then inSpecialQuerySet else inQuerySet
    { url with
      query := some (String.ofList (percentEncode set (rest.takeWhile (· != '#'))))
      fragment := readFragment (rest.dropWhile (· != '#')) }
  | cs => { url with query := none, fragment := readFragment cs }

/-- Reads a path behind a host, and what follows it. -/
def withPath (url : Url) (cs : List Char) : Url :=
  let special := isSpecial url.scheme
  let path := cs.takeWhile fun c => !endsPath c
  let segments :=
    match path with
    | c :: rest => readPath special [] (if isSlash special c then rest else c :: rest)
    | [] => if special then [[]] else []
  withTail { url with path := .ofSegments segments } (cs.dropWhile fun c => !endsPath c)

/-! ## Hosts -/

/-- The characters of a host before its port. Inside brackets a colon is part of the host. -/
def hostPart : (inside : Bool) → List Char → List Char
  | _, [] => []
  | inside, c :: cs =>
    if c = ':' ∧ inside = false then []
    else if c = '[' then c :: hostPart true cs
    else if c = ']' then c :: hostPart false cs
    else c :: hostPart inside cs

/-- Reads a port behind its colon, and returns the text behind it. -/
def readPort (scheme : String) (cs : List Char) : Except Fault (Option Nat × List Char) :=
  let digits := cs.takeWhile Char.isDigit
  let rest := cs.dropWhile Char.isDigit
  let value := digits.foldl (fun n c => n * 10 + (c.toNat - 0x30)) 0
  if 65535 < value ∨ (rest.head?.map (· != '\\')).getD false = true then .error .badPort
  else if digits.isEmpty ∨ defaultPort? scheme = some value then .ok (none, rest)
  else .ok (some value, rest)

/-- The user, the password, and the text behind the last `@`. -/
def readUser (cs : List Char) : String × Option String × List Char :=
  if cs.contains '@' then
    let host := (cs.reverse.takeWhile (· != '@')).reverse
    let info := cs.take (cs.length - host.length - 1)
    let encode (cs : List Char) : String := String.ofList (percentEncode inUserSet cs)
    let password := match info.dropWhile (· != ':') with
      | _ :: c :: rest => some (encode (c :: rest))
      | _ => none
    (encode (info.takeWhile (· != ':')), password, host)
  else ("", none, cs)

/-- Reads a host with what belongs to it and everything behind it. -/
def readAuthority (scheme : String) (cs : List Char) : Except Fault Url := do
  let special := isSpecial scheme
  let ends (c : Char) : Bool := isSlash special c || endsPath c
  let authority := cs.takeWhile fun c => !ends c
  let rest := cs.dropWhile fun c => !ends c
  let (user, password, place) := readUser authority
  let hostText := hostPart false place
  let behind := place.drop hostText.length
  if hostText.isEmpty ∧ (special ∨ authority.contains '@' ∨ !behind.isEmpty) then
    throw .emptyHost
  let host ← if special then specialHost hostText else plainHost hostText
  let (port, behind) ← match behind with
    | ':' :: digits => readPort scheme digits
    | behind => .ok (none, behind)
  let host := if hostText.isEmpty then none else some host
  return withPath ⟨scheme, user, password, host, port, .segments [], none, none⟩ (behind ++ rest)

/-! ## Whole URLs -/

/-- Reads a URL whose scheme is no special one, behind the colon. -/
def readPlain (scheme : String) (cs : List Char) : Except Fault Url :=
  let bare : Url := ⟨scheme, "", none, none, none, .plain "", none, none⟩
  match cs with
  | '/' :: '/' :: rest => readAuthority scheme rest
  | '/' :: rest => .ok (withPath bare ('/' :: rest))
  | cs =>
    let text := cs.takeWhile fun c => !endsPath c
    .ok (withTail { bare with path := .plain (String.ofList (percentEncode isControl text)) }
      (cs.dropWhile fun c => !endsPath c))

/-- Reads the URL of a file, behind the colon. A host that is this machine is left out. -/
def readFile (cs : List Char) : Except Fault Url := do
  let slashed := cs.map fun c => if c = '\\' then '/' else c
  match slashed with
  | '/' :: '/' :: rest =>
    let url ← readAuthority "file" rest
    if url.host = some (.name "localhost") then return { url with host := none } else return url
  | '/' :: rest => readPlain "file" ('/' :: rest)
  | rest => readPlain "file" ('/' :: rest)

/-- Reads a URL of its own. -/
def parseChars (cs : List Char) : Except Fault Url :=
  match readScheme? cs with
  | none => .error .noScheme
  | some (scheme, rest) =>
    if isSpecial scheme then readAuthority scheme (rest.dropWhile (isSlash true))
    else if scheme = "file" then readFile rest
    else readPlain scheme rest

/-- Reads a URL of its own. -/
def parse (text : String) : Except Fault Url :=
  parseChars (cleaned text.toList)

/-- The segments of a path. -/
def Path.toSegments : Path → List (List Char)
  | .segments parts => parts.map String.toList
  | .plain _ => []

/-- Reads what leaves its scheme to `base`, a URL with a special scheme. -/
def readRelative (base : Url) (cs : List Char) : Except Fault Url :=
  let replacePath (start : List (List Char)) (cs : List Char) : Url :=
    let segments := readPath true start (cs.takeWhile fun c => !endsPath c)
    withTail { base with path := .ofSegments segments } (cs.dropWhile fun c => !endsPath c)
  match cs with
  | [] => .ok { base with fragment := none }
  | '?' :: rest => .ok (withTail base ('?' :: rest))
  | '#' :: rest => .ok { base with fragment := readFragment ('#' :: rest) }
  | c :: rest =>
    if isSlash true c then
      match rest with
      | d :: others =>
        if c = '/' ∧ d = '/' then readAuthority base.scheme others
        else if isSlash true d then readAuthority base.scheme (others.dropWhile (isSlash true))
        else .ok (replacePath [] rest)
      | [] => .ok (replacePath [] [])
    else .ok (replacePath base.path.toSegments.dropLast (c :: rest))

/-- Reads a URL that may leave parts to `base`, a URL with a special scheme. -/
def join (base : Url) (text : String) : Except Fault Url :=
  let cs := cleaned text.toList
  match readScheme? cs with
  | none => readRelative base cs
  | some (scheme, rest) =>
    if scheme = base.scheme ∧ (rest.takeWhile (isSlash true)).length < 2 then
      readRelative base rest
    else parseChars cs

end CredentialRelay.Url
