import CredentialRelay.Text.CaseTables

/-!
# Lower case

The full lower-case form of a text.

* Every character goes to its simple lower-case form, except U+0130, which becomes an `i` and a
  combining dot.
* A capital sigma that ends a word becomes the final sigma: a cased letter comes before it and
  none comes after it, with case-ignorable characters skipped on both sides.
-/

namespace CredentialRelay.Text

/-- The lower-case form of a character that has a single one. -/
def lowercaseChar (c : Char) : Char :=
  if c.toNat < 0x80 then c.toLower
  else
    match lowercaseRuns.find? fun run =>
        decide (run.first ≤ c.toNat) && decide (c.toNat ≤ run.last) &&
          (c.toNat - run.first) % run.stride == 0 with
    | some run => Char.ofNat (Int.toNat (c.toNat + run.offset))
    | none => c

/-- Whether the first character of `cs` that is not case-ignorable is a cased letter. -/
def meetsCased (cs : List Char) : Bool :=
  match cs.dropWhile caseIgnorable.contains with
  | c :: _ => casedLetters.contains c
  | [] => false

/-- The lower-case form of a text whose characters before it are `before`, backwards. -/
def lowercaseFrom : List Char → List Char → List Char
  | _, [] => []
  | before, c :: cs =>
    let lower :=
      if c = 'İ' then ['i', '\u0307']
      else if c = 'Σ' then [if meetsCased before && !meetsCased cs then 'ς' else 'σ']
      else [lowercaseChar c]
    lower ++ lowercaseFrom (c :: before) cs

/-- The lower-case form of a text. -/
def lowercase (text : String) : String :=
  String.ofList (lowercaseFrom [] text.toList)

end CredentialRelay.Text
