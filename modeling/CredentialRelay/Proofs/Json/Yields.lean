import CredentialRelay.Json.Decoder
import CredentialRelay.Proofs.Attempt

/-!
# What is read has a property

Whatever holds of all values that a decoder is made of holds of all that it reads, whatever the text
is. Nothing is asked of the text.

* `Yields read P`: all that a decoder reads has a property.

Results:
* `list_yields`, `members_yields`: a property of the elements of a list, or one that every member of
  an object keeps.
* `Shape.read_yields`: a property that every field keeps holds of the records that are read.
-/

namespace CredentialRelay.Json

variable {α β σ : Type} {P : α → Prop} {Q : β → Prop} {I : σ → Prop}

/-- All that a decoder reads has a property. -/
def Yields (read : Decoder α) (P : α → Prop) : Prop :=
  ∀ ⦃cs : List Char⦄ ⦃value : α⦄ ⦃rest : List Char⦄, read cs = .ok (value, rest) → P value

theorem yields_true (read : Decoder α) : Yields read fun _ => True :=
  fun _ _ _ _ => trivial

theorem Yields.map {read : Decoder α} {f : α → β} (h : Yields read P)
    (hf : ∀ value, P value → Q (f value)) :
    Yields (fun cs => (read cs).map fun (value, rest) => (f value, rest)) Q := by
  intro cs value rest hread
  obtain ⟨⟨first, _⟩, hfirst, hvalue⟩ := map_eq_ok hread
  cases hvalue
  exact hf first (h hfirst)

/-! ## Values -/

theorem orDefault_yields {default : α} {read : Decoder α} (hdefault : P default)
    (h : Yields read P) : Yields (orDefault default read) P := by
  intro cs value rest hread
  unfold orDefault at hread
  split at hread
  · obtain ⟨_, -, hvalue⟩ := map_eq_ok hread
    cases hvalue
    exact hdefault
  · exact h hread

theorem optional_yields {read : Decoder α} (h : Yields read P) :
    Yields (optional read) fun found => ∀ value, found = some value → P value :=
  orDefault_yields nofun (h.map fun _ hvalue _ heq => Option.some.inj heq ▸ hvalue)

theorem textAs_yields {expected : String} {parse : String → Except Cause α}
    (h : ∀ s value, parse s = .ok value → P value) : Yields (textAs expected parse) P := by
  intro cs value rest hread
  unfold textAs at hread
  split at hread
  · split at hread
    · cases hread
    · split at hread
      · next hparse =>
        cases hread
        exact h _ _ hparse
      · cases hread
  · cases hread
  · cases hread

/-! ## Elements and members -/

theorem elementsFrom_yields {element : Decoder α} (h : Yields element P) (fuel : Nat) :
    ∀ (first : Bool) (read : List α), (∀ value ∈ read, P value) →
      Yields (elementsFrom element fuel first read) fun values => ∀ value ∈ values, P value := by
  induction fuel with
  | zero =>
    intro first read hsofar cs values rest hread
    cases hread
    exact fun value hvalue => hsofar value (List.mem_reverse.mp hvalue)
  | succ fuel ih =>
    intro first read hsofar cs values rest hread
    unfold elementsFrom at hread
    split at hread
    · cases hread
    · obtain ⟨_, -, hvalues⟩ := map_eq_ok hread
      cases hvalues
      exact fun value hvalue => hsofar value (List.mem_reverse.mp hvalue)
    · split at hread
      · cases hread
      · next helement => exact ih _ _ (List.forall_mem_cons.mpr ⟨h helement, hsofar⟩) hread

/-- **What all elements have, all of a list have.** -/
theorem list_yields {element : Decoder α} (h : Yields element P) :
    Yields (list element) fun values => ∀ value ∈ values, P value := by
  intro cs values rest hread
  unfold list at hread
  split at hread
  · exact elementsFrom_yields h _ _ _ (List.forall_mem_nil _) hread
  · cases hread
  · cases hread

theorem membersFrom_yields {member : σ → String → Decoder σ}
    (h : ∀ s key, I s → Yields (member s key) I) (fuel : Nat) :
    ∀ (first : Bool) (s : σ), I s → Yields (membersFrom member fuel first s) I := by
  induction fuel with
  | zero =>
    intro first s hs cs t rest hread
    cases hread
    exact hs
  | succ fuel ih =>
    intro first s hs cs t rest hread
    unfold membersFrom at hread
    split at hread
    · cases hread
    · cases hread
      exact hs
    · split at hread
      · cases hread
      · split at hread
        · cases hread
        · next hmember => exact ih _ _ (h _ _ hs hmember) hread

/-- **What every member keeps, an object keeps.** -/
theorem members_yields {member : σ → String → Decoder σ}
    (h : ∀ s key, I s → Yields (member s key) I) {s : σ} (hs : I s) :
    Yields (members member s) I :=
  fun _ _ _ hread => membersFrom_yields h _ true s hs hread

/-! ## Records -/

variable {shape : Shape σ}

theorem Shape.positions_yields {fields : List (Member σ)}
    (h : ∀ field ∈ fields, ∀ s, I s → Yields (field.read s) I) (index : Nat) {s : σ} (hs : I s) :
    Yields (shape.positions index fields s) I := by
  induction fields generalizing index s with
  | nil =>
    intro cs t rest hread
    obtain ⟨_, -, ht⟩ := map_eq_ok hread
    cases ht
    exact hs
  | cons field fields ih =>
    obtain ⟨hfield, hfields⟩ := List.forall_mem_cons.mp h
    intro cs t rest hread
    unfold Shape.positions at hread
    split at hread
    · cases hread
    · split at hread
      · cases hread
      · obtain ⟨_, -, ht⟩ := map_eq_ok hread
        cases ht
        exact hs
    · split at hread
      · cases hread
      · next hvalue => exact ih hfields _ (hfield _ hs hvalue) hread

theorem Shape.member_yields (h : ∀ field ∈ shape.fields, ∀ s, I s → Yields (field.read s) I)
    (known : σ × List String) (key : String) (hs : I known.1) :
    Yields (shape.member known key) fun known => I known.1 := by
  intro cs t rest hread
  unfold Shape.member at hread
  split at hread
  · next field hfind =>
    split at hread
    · cases hread
    · split at hread
      · cases hread
      · split at hread
        · cases hread
        · next hvalue =>
          cases hread
          exact h field (List.mem_of_find?_eq_some hfind) _ hs hvalue
  · split at hread
    · cases hread
    · split at hread
      · cases hread
      · cases hread
        exact hs

/-- **What every field keeps, all records that are read have.** -/
theorem Shape.read_yields (h : ∀ field ∈ shape.fields, ∀ s, I s → Yields (field.read s) I)
    {start : σ} (hstart : I start) : Yields (shape.read start) I := by
  intro cs s rest hread
  unfold Shape.read at hread
  split at hread
  · cases hread
  · split at hread
    · exact Shape.positions_yields h 0 hstart hread
    · cases hread
  · split at hread
    · cases hread
    · next hmembers =>
      split at hread
      · cases hread
      · cases hread
        exact members_yields (Shape.member_yields h) hstart hmembers
  · cases hread

theorem Yields.decode {read : Decoder α} (h : Yields read P) {text : String} {value : α}
    (hdecode : decode read text = .ok value) : P value := by
  unfold Json.decode at hdecode
  split at hdecode
  · cases hdecode
  · next hread =>
    split at hdecode
    · cases hdecode
      exact h hread
    · cases hdecode

end CredentialRelay.Json
