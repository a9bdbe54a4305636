import CredentialRelay.Json.Skip

/-!
# The grammar of JSON texts

Values as they are written, with all their blanks, signs and escapes, so that every JSON text is the
text of exactly the pieces that it is made of.

* Blanks, digits and the pieces of strings carry the proof that they are some, so there are no trees
  that do not spell a JSON text.
* An escape of four digits may be half of a surrogate pair, and the other half may be missing. Such
  a string is well-formed but says nothing: `spelled?` is what a string says.
* Elements of lists and members of objects are items of a bracket, which differ in their keys only.
  The text of the items goes up to the closing bracket, and whether a comma leads the next item is
  told by whether it is the first.
* `Items.members` are the members of an object by their names, whatever blanks and escapes they are
  written with.
* `Context` and `ItemsContext` are values and items with a hole in place of one value.
-/

namespace CredentialRelay.Json

/-! ## Blanks and digits -/

/-- Blanks between the parts of a text. -/
abbrev Blanks := {cs : List Char // ∀ c ∈ cs, isBlank c = true}

/-- No blanks. -/
def Blanks.none : Blanks :=
  ⟨[], fun _ h => absurd h List.not_mem_nil⟩

/-- Decimal digits, at least one. -/
abbrev Digits := {cs : List Char // cs ≠ [] ∧ ∀ c ∈ cs, c.isDigit = true}

/-- A hexadecimal digit. -/
abbrev HexDigit := {c : Char // (hexValue? c).isSome = true}

/-! ## Strings -/

/-- Whether a character may stand for itself in a string. -/
def IsPlain (c : Char) : Prop :=
  c ≠ '"' ∧ c ≠ '\\' ∧ ¬c.toNat < 0x20

instance (c : Char) : Decidable (IsPlain c) :=
  inferInstanceAs (Decidable (_ ∧ _))

/-- A piece of a string. -/
inductive Glyph where
  /-- A character that stands for itself. -/
  | plain (c : Char) (h : IsPlain c)
  /-- An escape of one letter. -/
  | escape (c : Char) (h : (simpleEscape? c).isSome = true)
  /-- An escape of four digits. -/
  | code (a b c d : HexDigit)

/-- How a piece of a string is written. -/
def Glyph.text : Glyph → List Char
  | .plain c _ => [c]
  | .escape c _ => ['\\', c]
  | .code a b c d => ['\\', 'u', a.1, b.1, c.1, d.1]

/-- A string behind its opening quote. -/
def stringText (glyphs : List Glyph) : List Char :=
  glyphs.flatMap Glyph.text ++ ['"']

/-- The value of a hexadecimal digit. -/
def HexDigit.value (d : HexDigit) : Nat :=
  (hexValue? d.1).get d.2

/-- The number that four hexadecimal digits give. -/
def codeUnit (a b c d : HexDigit) : Nat :=
  ((a.value * 16 + b.value) * 16 + c.value) * 16 + d.value

/-- What pieces of a string say, behind the first half of a surrogate pair or not. -/
def spelledFrom : (high : Option Nat) → List Glyph → Option (List Char)
  | none, [] => some []
  | none, .plain c _ :: glyphs => (spelledFrom none glyphs).map (c :: ·)
  | none, .escape c h :: glyphs => (spelledFrom none glyphs).map ((simpleEscape? c).get h :: ·)
  | high, .code a b c d :: glyphs =>
    match unit high (codeUnit a b c d) with
    | .ok (.inl c) => (spelledFrom none glyphs).map (c :: ·)
    | .ok (.inr high) => spelledFrom (some high) glyphs
    | .error _ => none
  | some _, _ => none

/-- What a string says, if no half of a surrogate pair in it lacks the other. -/
def spelled? (glyphs : List Glyph) : Option String :=
  (spelledFrom none glyphs).map String.ofList

/-! ## Numbers -/

/-- The exponent of a number. -/
structure Exponent where
  /-- Whether it begins with a capital letter. -/
  capital : Bool
  /-- Whether it has a sign, and whether that is a minus. -/
  sign : Option Bool
  digits : Digits

/-- How the sign of an exponent is written. -/
def signText : Option Bool → List Char
  | none => []
  | some true => ['-']
  | some false => ['+']

def Exponent.text (e : Exponent) : List Char :=
  (if e.capital then 'E' else 'e') :: (signText e.sign ++ e.digits.1)

/-- A number. -/
structure Numeral where
  negative : Bool
  whole : Digits
  /-- A zero does not lead other digits. -/
  canonical : whole.1.head? = some '0' → whole.1 = ['0']
  fraction : Option Digits
  exponent : Option Exponent

def fractionText : Option Digits → List Char
  | none => []
  | some digits => '.' :: digits.1

def exponentText : Option Exponent → List Char
  | none => []
  | some exponent => exponent.text

/-- What follows the digits before the point. -/
def Numeral.tail (n : Numeral) : List Char :=
  fractionText n.fraction ++ exponentText n.exponent

/-- A number without its sign. -/
def Numeral.magnitude (n : Numeral) : List Char :=
  n.whole.1 ++ n.tail

def Numeral.text (n : Numeral) : List Char :=
  (if n.negative then ['-'] else []) ++ n.magnitude

/-! ## Values -/

/-- A value without brackets. -/
inductive Scalar where
  | null
  | boolean (b : Bool)
  | number (n : Numeral)
  | string (glyphs : List Glyph)

def Scalar.text : Scalar → List Char
  | .null => ['n', 'u', 'l', 'l']
  | .boolean true => ['t', 'r', 'u', 'e']
  | .boolean false => ['f', 'a', 'l', 's', 'e']
  | .number n => n.text
  | .string glyphs => '"' :: stringText glyphs

def Bracket.opening : Bracket → Char
  | .list => '['
  | .object => '\x7b'

def Bracket.closing : Bracket → Char
  | .list => ']'
  | .object => '\x7d'

/-- What stands before the value of an item. -/
inductive Key : Bracket → Type where
  /-- Nothing but blanks. -/
  | element (gap : Blanks) : Key .list
  /-- A name and a colon. -/
  | member (ahead : Blanks) (name : List Glyph) (behind gap : Blanks) : Key .object

def Key.text : {b : Bracket} → Key b → List Char
  | _, .element gap => gap.1
  | _, .member ahead name behind gap =>
    ahead.1 ++ '"' :: (stringText name ++ (behind.1 ++ ':' :: gap.1))

/-- The name of a member, if it says something. -/
def Key.name? : Key .object → Option String
  | .member _ name _ _ => spelled? name

/-- What separates an item from what is before it. -/
def separator (first : Bool) : List Char :=
  if first then [] else [',']

mutual

/-- A value. -/
inductive Value where
  | scalar (s : Scalar)
  | bracketed (b : Bracket) (items : Items b)

/-- The items of a bracket. -/
inductive Items : Bracket → Type where
  | close {b : Bracket} (gap : Blanks) : Items b
  | item {b : Bracket} (gap : Blanks) (key : Key b) (value : Value) (others : Items b) : Items b

end

mutual

def Value.text : Value → List Char
  | .scalar s => s.text
  | .bracketed b items => b.opening :: items.text true

/-- Items up to the closing bracket. -/
def Items.text {b : Bracket} : Items b → (first : Bool) → List Char
  | .close gap, _ => gap.1 ++ [b.closing]
  | .item gap key value others, first =>
    gap.1 ++ (separator first ++ (key.text ++ (value.text ++ others.text false)))

end

/-- How many items there are. -/
def Items.count {b : Bracket} : Items b → Nat
  | .close _ => 0
  | .item _ _ _ others => others.count + 1

/-! ## What is said -/

/-- What a string says. -/
def Value.string? : Value → Option String
  | .scalar (.string glyphs) => spelled? glyphs
  | _ => none

/-- What a value means, `null` being a default. -/
def Value.orNull {α : Type} (default : α) (meaning : Value → Option α) : Value → Option α
  | .scalar .null => some default
  | v => meaning v

/-- The members of an object in their order, each with its name if that says something. -/
abbrev Members := List (Option String × Value)

/-- The keys of the items with their values. -/
def Items.keyed {b : Bracket} : Items b → List (Key b × Value)
  | .close _ => []
  | .item _ key v others => (key, v) :: others.keyed

/-- The values of the items. -/
def Items.values {b : Bracket} (items : Items b) : List Value :=
  items.keyed.map Prod.snd

/-- The members of an object. -/
def Items.members (items : Items .object) : Members :=
  items.keyed.map fun item => (item.1.name?, item.2)

theorem Items.members_item (gap ahead : Blanks) (name : List Glyph) (behind vgap : Blanks)
    (v : Value) (others : Items .object) :
    (Items.item gap (.member ahead name behind vgap) v others).members =
      (spelled? name, v) :: others.members :=
  rfl

/-- The members of a value that is an object. -/
def Value.object? : Value → Option Members
  | .bracketed .object items => some items.members
  | _ => none

/-- What the members of an object mean: each goes on from what is known so far. -/
def Members.run {σ : Type} (step : σ → String → Value → Option σ) (s : σ) (ms : Members) :
    Option σ :=
  ms.foldlM (fun s member => member.1.bind fun name => step s name member.2) s

theorem Members.run_named {σ : Type} (step : σ → String → Value → Option σ) (s : σ) (name : String)
    (v : Value) (ms : Members) :
    Members.run step s ((some name, v) :: ms) =
      (step s name v).bind fun s => Members.run step s ms :=
  rfl

theorem Members.run_unnamed {σ : Type} (step : σ → String → Value → Option σ) (s : σ) (v : Value)
    (ms : Members) : Members.run step s ((none, v) :: ms) = none :=
  rfl

/-! ## Holes -/

mutual

/-- A value with a hole. -/
inductive Context where
  | hole
  | within (b : Bracket) (items : ItemsContext b)

/-- Items with a hole in the value of one of them. -/
inductive ItemsContext : Bracket → Type where
  | here {b : Bracket} (gap : Blanks) (key : Key b) (value : Context) (others : Items b) :
      ItemsContext b
  | later {b : Bracket} (gap : Blanks) (key : Key b) (value : Value) (others : ItemsContext b) :
      ItemsContext b

end

mutual

/-- The value with something in the hole. -/
def Context.fill (v : Value) : Context → Value
  | .hole => v
  | .within b items => .bracketed b (items.fill v)

/-- The items with something in the hole. -/
def ItemsContext.fill {b : Bracket} (v : Value) : ItemsContext b → Items b
  | .here gap key value others => .item gap key (value.fill v) others
  | .later gap key value others => .item gap key value (others.fill v)

end

/-- The key of the item with the hole. -/
def ItemsContext.key {b : Bracket} : ItemsContext b → Key b
  | .here _ key _ _ => key
  | .later _ _ _ others => others.key

/-- The value of the item with the hole. -/
def ItemsContext.value {b : Bracket} : ItemsContext b → Context
  | .here _ _ value _ => value
  | .later _ _ _ others => others.value

/-- A text that is one object, with a hole. -/
structure Slot where
  ahead : Blanks
  members : ItemsContext .object
  behind : Blanks

/-- The characters of the text with a value in the hole. -/
def Slot.text (slot : Slot) (v : Value) : List Char :=
  slot.ahead.1 ++ ((Value.bracketed .object (slot.members.fill v)).text ++ slot.behind.1)

/-- The text with a value in the hole. -/
def Slot.fill (slot : Slot) (v : Value) : String :=
  String.ofList (slot.text v)

end CredentialRelay.Json
