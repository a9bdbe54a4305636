/-!
# Splitting texts

A text is split at one character, either at its first occurrence or at all of them.

Results:
* `intercalate_splitAll`: joining the pieces gives the text back.
-/

namespace CredentialRelay.Text

/-- The text before the first `c`, and the text behind it if there is one. -/
def splitFirst (c : Char) (cs : List Char) : List Char × Option (List Char) :=
  match cs.dropWhile (· != c) with
  | [] => (cs, none)
  | _ :: rest => (cs.takeWhile (· != c), some rest)

/-- The texts between the characters `c`; there is one more of them than of these. -/
def splitAll (c : Char) : List Char → List (List Char)
  | [] => [[]]
  | d :: ds =>
    match splitAll c ds with
    | [] => [[d]]
    | first :: rest => if d = c then [] :: first :: rest else (d :: first) :: rest

theorem splitAll_ne_nil (c : Char) (cs : List Char) : splitAll c cs ≠ [] := by
  cases cs with
  | nil => simp [splitAll]
  | cons d ds =>
    simp only [splitAll]
    split
    · simp
    · split <;> simp

/-- Joining the pieces of a text gives the text back. -/
theorem intercalate_splitAll (c : Char) (cs : List Char) :
    [c].intercalate (splitAll c cs) = cs := by
  induction cs with
  | nil => simp [splitAll, List.intercalate]
  | cons d ds ih =>
    simp only [splitAll]
    split
    · next h => exact absurd h (splitAll_ne_nil c ds)
    · next first rest h =>
      rw [h] at ih
      split
      · next hd =>
        subst hd
        rw [← ih]
        simp [List.intercalate, List.intersperse]
      · rw [← ih]
        cases rest <;> simp [List.intercalate, List.intersperse]

end CredentialRelay.Text
