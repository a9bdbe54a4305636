import CredentialRelay.Proofs.Json.Records

/-!
# Records and the elements of lists

A record may also be given as a list of its fields. Its elements are read as the fields in their
order, so a list means a record if its values mean those of the fields, and the fields that the list
is too short for have defaults. With the members of objects, that is all that a record is read from.

Results:
* `Shape.positions_means`: the elements of a list are read for what they mean as fields.
* `Shape.read_means`: a record is read for what a value means as a record.
-/

namespace CredentialRelay.Json

/-! ## Elements -/

theorem Items.text_element (gap vgap : Blanks) (v : Value) (others : Items .list) (first : Bool)
    (r : List Char) :
    (Items.item gap (.element vgap) v others).text first ++ r =
      gap.1 ++ (separator first ++ (vgap.1 ++ (v.text ++ (others.text false ++ r)))) := by
  simp only [Items.text, Key.text, List.append_assoc]

/-- Blanks and a comma, if one leads, are passed over up to the value of an element. -/
theorem skipBlanks_element (gap vgap : Blanks) (v : Value) (cs : List Char) :
    skipBlanks (gap.1 ++ (separator true ++ (vgap.1 ++ (v.text ++ cs)))) = v.text ++ cs ∧
      skipBlanks (gap.1 ++ (separator false ++ (vgap.1 ++ (v.text ++ cs)))) =
        ',' :: (vgap.1 ++ (v.text ++ cs)) := by
  constructor
  · rw [skipBlanks_append]
    exact skipBlanks_text vgap v cs
  · rw [skipBlanks_append]
    exact skipBlanks_cons (by rfl) _

/-- A value begins with none of the characters that may follow an element. -/
theorem Value.text_ne_cons (v : Value) {c : Char} (h : isDelimiter c = true) (cs ds : List Char) :
    v.text ++ cs ≠ c :: ds := by
  obtain ⟨d, es, htext, hd⟩ := v.text_cons
  rw [htext]
  rintro ⟨⟩
  rw [hd.not_delimiter] at h
  cases h

theorem Value.text_ne_nil (v : Value) (cs : List Char) : v.text ++ cs ≠ [] := by
  obtain ⟨c, ds, htext, -⟩ := v.text_cons
  rw [htext]
  exact List.cons_ne_nil c _

theorem nextElement_close (gap : Blanks) (first : Bool) (r : List Char) :
    nextElement first ((Items.close gap : Items .list).text first ++ r) = .ok (none, ']' :: r) := by
  rw [nextElement, Items.text, List.append_assoc, skipBlanks_append]
  rfl

theorem nextElement_item (gap vgap : Blanks) (first : Bool) (v : Value) (cs : List Char) :
    nextElement first (gap.1 ++ (separator first ++ (vgap.1 ++ (v.text ++ cs)))) =
      .ok (some (v.text ++ cs), []) := by
  obtain ⟨hfirst, hlater⟩ := skipBlanks_element gap vgap v cs
  unfold nextElement
  cases first with
  | true =>
    rw [hfirst]
    split
    · next h => exact absurd h (v.text_ne_nil cs)
    · next c ds h =>
      have hclosing : c ≠ ']' := fun hc => v.text_ne_cons (by rfl) cs ds (hc ▸ h)
      rw [if_neg hclosing, if_pos rfl, h]
  | false =>
    simp only [hlater, skipBlanks_text, Char.reduceEq, Bool.false_eq_true, if_false, if_true]
    split
    · next h => exact absurd h (v.text_ne_cons (by rfl) cs _)
    · next h => exact absurd h (v.text_ne_nil cs)
    · rfl

theorem endList_close (gap : Blanks) (first : Bool) (r : List Char) :
    endList ((Items.close gap : Items .list).text first ++ r) = .ok r := by
  rw [endList, Items.text, List.append_assoc, skipBlanks_append]
  rfl

/-- A list that has more elements has not ended. -/
theorem endList_item (gap vgap : Blanks) (first : Bool) (v : Value) (cs : List Char) :
    endList (gap.1 ++ (separator first ++ (vgap.1 ++ (v.text ++ cs)))) =
      .error ((Cause.trailingCharacters.next v.text).behind cs) := by
  obtain ⟨hfirst, hlater⟩ := skipBlanks_element gap vgap v cs
  unfold endList
  cases first with
  | true =>
    rw [hfirst]
    split
    · next h => exact absurd h (v.text_ne_cons (by rfl) cs _)
    · next h => exact absurd h (v.text_ne_cons (by rfl) cs _)
    · next h => exact absurd h (v.text_ne_nil cs)
    · rfl
  | false =>
    simp only [hlater, skipBlanks_text]
    split
    · next h => exact absurd h (v.text_ne_cons (by rfl) cs _)
    · rfl

/-- A list that is refused is left unread from its first element on. -/
theorem behindList_text (items : Items .list) :
    ∃ left, ∀ r, behindList (items.text true ++ r) = left ++ r := by
  match items with
  | .close gap =>
    refine ⟨[], fun r => ?_⟩
    rw [behindList, Items.text, List.append_assoc, skipBlanks_append]
    rfl
  | .item gap (.element vgap) v others =>
    refine ⟨v.text ++ others.text false, fun r => ?_⟩
    rw [Items.text_element, behindList, (skipBlanks_element ..).1, List.append_assoc]
    split
    · next h => exact absurd h (v.text_ne_cons (by rfl) _ _)
    · next h => exact absurd h (v.text_ne_cons (by rfl) _ _)
    · rfl

/-! ## Records -/

namespace Shape

variable {σ : Type} {shape : Shape σ} {means : Member σ → σ → Value → Option σ}

/-- **The elements of a list are read for what they mean as fields**, whatever comes behind. -/
theorem positions_means (shape : Shape σ) {fields : List (Member σ)}
    (hmeans : ∀ field ∈ fields, ∀ s, Means (field.read s) (means field s)) (index : Nat) (s : σ)
    (items : Items .list) :
    ∃ fault, ∀ r, shape.positions index fields s (items.text (index == 0) ++ r) =
      leaving (orFault (shape.fill means fields s items.values) fault) r := by
  induction fields generalizing index s items with
  | nil =>
    match items with
    | .close gap =>
      refine ⟨Cause.endInList.here [], fun r => ?_⟩
      rw [positions, endList_close]
      rfl
    | .item gap (.element vgap) v others =>
      refine ⟨(Cause.trailingCharacters.next v.text).behind (others.text false), fun r => ?_⟩
      rw [Items.text_element, positions, endList_item, ← Fault.behind_behind]
      rfl
  | cons field fields ih =>
    obtain ⟨hfield, hfields⟩ := List.forall_mem_cons.mp hmeans
    match items with
    | .close gap =>
      simp only [positions, nextElement_close, Items.values, Items.keyed, List.map_nil, fill]
      split
      · exact ⟨(Cause.invalidLength index
          s!"{shape.expected} with {shape.fields.length} elements").here [], fun r => rfl⟩
      · exact ⟨Cause.endInList.here [], fun r => rfl⟩
    | .item gap (.element vgap) v others =>
      obtain ⟨fault, hvalue⟩ := hfield s Blanks.none v
      have hread (r : List Char) : field.read s (v.text ++ (others.text false ++ r)) =
          leaving (orFault (means field s v) fault) (others.text false ++ r) :=
        hvalue _ (others.delimits r)
      simp only [Items.text_element, positions, nextElement_item, hread]
      show ∃ fault, ∀ r, _ = leaving (orFault ((means field s v).bind fun s =>
        shape.fill means fields s others.values) fault) r
      cases means field s v with
      | none =>
        exact ⟨fault.behind (others.text false), fun r =>
          congrArg Except.error (Fault.behind_behind fault _ r).symm⟩
      | some t => exact ih hfields (index + 1) t others

theorem read_list (start : σ) (gap : Blanks) (items : Items .list) (r : List Char) :
    shape.read start (gap.1 ++ ((Value.bracketed .list items).text ++ r)) =
      if shape.positional then shape.positions 0 shape.fields start (items.text true ++ r)
      else .error ((Cause.invalidType .list shape.expected).here
        (behindList (items.text true ++ r))) := by
  rw [read, skipBlanks_text]
  rfl

theorem read_scalar (start : σ) (gap : Blanks) (s : Scalar) (r : List Char) :
    shape.read start (gap.1 ++ ((Value.scalar s).text ++ r)) =
      .error (mismatch shape.expected ((Value.scalar s).text ++ r)) := by
  obtain ⟨c, cs, htext, hc⟩ := (Value.scalar s).text_cons
  rw [read, skipBlanks_text, htext]
  split
  · next h => exact absurd h (List.cons_ne_nil c _)
  · next h =>
    obtain ⟨items, hlist⟩ := hc.of_list (List.cons.inj h).1
    cases hlist
  · next h =>
    obtain ⟨items, hobject⟩ := hc.of_object (List.cons.inj h).1
    cases hobject
  · rfl

/-- **A record is read for what a value means as a record**, if its fields are. -/
theorem read_means (hmeans : ∀ field ∈ shape.fields, ∀ s, Means (field.read s) (means field s))
    (start : σ) : Means (shape.read start) (shape.meaning means start) := by
  intro gap v
  match v with
  | .scalar s =>
    obtain ⟨fault, hfault⟩ := settles_mismatch shape.expected (.scalar s)
    refine ⟨fault, fun r hr => ?_⟩
    rw [List.append_assoc, read_scalar, hfault r hr]
    rfl
  | .bracketed .list items =>
    simp only [meaning]
    split
    · next hpositional =>
      obtain ⟨fault, hread⟩ := shape.positions_means hmeans 0 start items
      refine ⟨fault, fun r _ => ?_⟩
      rw [List.append_assoc, read_list, if_pos hpositional]
      exact hread r
    · next hpositional =>
      obtain ⟨left, hleft⟩ := behindList_text items
      refine ⟨(Cause.invalidType .list shape.expected).here left, fun r _ => ?_⟩
      rw [List.append_assoc, read_list, if_neg hpositional, hleft]
      rfl
  | .bracketed .object items =>
    obtain ⟨fault, hread⟩ := read_object_takes hmeans start gap items
    refine ⟨fault, fun r _ => ?_⟩
    rw [List.append_assoc]
    exact hread r

end Shape

end CredentialRelay.Json
