import CredentialRelay.Text.Ranges

/-!
# Blanks

The characters with the property `White_Space`, and the three operations that depend on them or
on another class of characters: trimming, splitting into fields, and telling whether a text is
blank.

* Trimming takes the class as a parameter, since an address is trimmed of slashes.
* `fields` never returns an empty field.
-/

namespace CredentialRelay.Text

/-- The characters with the property `White_Space`, in ascending order. -/
def blanks : Ranges := [
  (0x9, 0xd), (0x20, 0x20), (0x85, 0x85), (0xa0, 0xa0), (0x1680, 0x1680), (0x2000, 0x200a),
  (0x2028, 0x2029), (0x202f, 0x202f), (0x205f, 0x205f), (0x3000, 0x3000)]

/-- Whether `c` has the property `White_Space`. -/
def isBlank (c : Char) : Bool :=
  blanks.contains c

/-- `cs` without the longest run of characters in `p` at its end. -/
def dropEndWhile (p : Char → Bool) : List Char → List Char
  | [] => []
  | c :: cs =>
    match dropEndWhile p cs with
    | [] => if p c then [] else [c]
    | rest => c :: rest

/-- `cs` without the longest runs of characters in `p` at its two ends. -/
def trimBy (p : Char → Bool) (cs : List Char) : List Char :=
  dropEndWhile p (cs.dropWhile p)

/-- `text` without blanks at its two ends. -/
def trim (text : String) : String :=
  String.ofList (trimBy isBlank text.toList)

/-- `text` without slashes at its end. -/
def trimEndSlashes (text : String) : String :=
  String.ofList (dropEndWhile (· == '/') text.toList)

/-- `text` without slashes at its start. -/
def trimStartSlashes (text : String) : String :=
  String.ofList (text.toList.dropWhile (· == '/'))

/-- `text` without slashes at its two ends. -/
def trimSlashes (text : String) : String :=
  String.ofList (trimBy (· == '/') text.toList)

/-- Whether every character of `text` is a blank. -/
def allBlank (text : String) : Bool :=
  text.toList.all isBlank

/-- The longest runs of characters outside `p`, in order; `current` is the run being read,
backwards. -/
def runsOutside (p : Char → Bool) : List Char → List Char → List (List Char)
  | current, [] => if current.isEmpty then [] else [current.reverse]
  | current, c :: cs =>
    if p c then
      if current.isEmpty then runsOutside p [] cs
      else current.reverse :: runsOutside p [] cs
    else runsOutside p (c :: current) cs

/-- The fields of a text: its longest runs of characters that are no blanks. -/
def fields (text : String) : List String :=
  (runsOutside isBlank [] text.toList).map String.ofList

/-! ## Small laws -/

theorem dropEndWhile_eq_nil_iff {p : Char → Bool} {cs : List Char} :
    dropEndWhile p cs = [] ↔ cs.all p = true := by
  induction cs with
  | nil => simp [dropEndWhile]
  | cons c cs ih =>
    simp only [dropEndWhile, List.all_cons, Bool.and_eq_true]
    split
    · next h => by_cases hp : p c <;> simp [hp, ih.1 h]
    · next rest h =>
      simp only [reduceCtorEq, false_iff, not_and]
      exact fun _ hall => h (ih.2 hall)

/-- Trimming leaves nothing exactly of a text that is all trimmed characters. -/
theorem trimBy_eq_nil_iff {p : Char → Bool} {cs : List Char} :
    trimBy p cs = [] ↔ cs.all p = true := by
  rw [trimBy, dropEndWhile_eq_nil_iff]
  induction cs with
  | nil => simp
  | cons c cs ih => by_cases hp : p c <;> simp_all

end CredentialRelay.Text
