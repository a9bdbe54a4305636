import CredentialRelay.Proofs.Json.Positions
import CredentialRelay.Proofs.Json.Soundness

/-!
# Lists that are read

The elements of a list are read one after another, and the list is taken if all of them are. So a
list means the list of what its elements mean, and nothing but a list is read as one.

* `Value.list? meaning`: what the elements of a list mean.

Results:
* `elementsFrom_means`: elements are read for what they mean, one after another.
* `list_means`: so is a list.
* `list_spells`: what is read of a list is a value.
-/

namespace CredentialRelay.Json

variable {α : Type} {element : Decoder α} {meaning : Value → Option α}

/-- What the elements of a list mean. -/
def Value.list? (meaning : Value → Option α) : Value → Option (List α)
  | .bracketed .list items => items.values.mapM meaning
  | _ => none

theorem Value.list?_other {v : Value} (hv : ∀ items, v ≠ .bracketed .list items) :
    v.list? meaning = none := by
  unfold list?
  split
  · next items => exact absurd rfl (hv items)
  · rfl

theorem Items.mapM_values_item (gap : Blanks) (key : Key .list) (v : Value) (others : Items .list) :
    (Items.item gap key v others).values.mapM meaning =
      (meaning v).bind fun first => (others.values.mapM meaning).map (first :: ·) := by
  show (v :: others.values).mapM meaning = _
  rw [List.mapM_cons]
  cases meaning v with
  | none => rfl
  | some first => cases others.values.mapM meaning <;> rfl

/-- **The elements of a list are read for what they mean**, one after another, whatever comes
behind. -/
theorem elementsFrom_means (h : Means element meaning) (items : Items .list) (first : Bool)
    (read : List α) :
    ∃ fault, ∀ fuel, items.count < fuel → ∀ r,
      elementsFrom element fuel first read (items.text first ++ r) =
        leaving (orFault ((items.values.mapM meaning).map (read.reverse ++ ·)) fault) r := by
  match items with
  | .close gap =>
    refine ⟨Cause.endInList.here [], fun fuel hfuel r => ?_⟩
    obtain ⟨fuel, rfl⟩ := Nat.exists_eq_succ_of_ne_zero (Nat.ne_of_gt hfuel)
    rw [elementsFrom, nextElement_close]
    show .ok (read.reverse, r) = Except.ok (read.reverse ++ [], r)
    rw [List.append_nil]
  | .item gap (.element vgap) v others =>
    obtain ⟨fault, hread⟩ := h Blanks.none v
    have hvalue (r : List Char) : element (v.text ++ (others.text false ++ r)) =
        leaving (orFault (meaning v) fault) (others.text false ++ r) :=
      hread _ (others.delimits r)
    rw [Items.mapM_values_item]
    cases hmeaning : meaning v with
    | none =>
      refine ⟨fault.behind (others.text false), fun fuel hfuel r => ?_⟩
      obtain ⟨fuel, rfl⟩ := Nat.exists_eq_succ_of_ne_zero (Nat.ne_of_gt (Nat.zero_lt_of_lt hfuel))
      rw [Items.text_element, elementsFrom, nextElement_item]
      simp only [hvalue, hmeaning]
      exact congrArg Except.error (fault.behind_behind _ r).symm
    | some value =>
      obtain ⟨fault, ho⟩ := elementsFrom_means h others false (value :: read)
      refine ⟨fault, fun fuel hfuel r => ?_⟩
      obtain ⟨fuel, rfl⟩ := Nat.exists_eq_succ_of_ne_zero (Nat.ne_of_gt (Nat.zero_lt_of_lt hfuel))
      rw [Items.text_element, elementsFrom, nextElement_item]
      simp only [hvalue, hmeaning]
      refine (ho fuel (Nat.lt_of_succ_lt_succ hfuel) r).trans ?_
      simp [Function.comp_def]

theorem list_list (element : Decoder α) (gap : Blanks) (items : Items .list) (r : List Char) :
    list element (gap.1 ++ ((Value.bracketed .list items).text ++ r)) =
      elementsFrom element ((items.text true ++ r).length + 1) true [] (items.text true ++ r) := by
  rw [list, skipBlanks_text]
  rfl

theorem list_other (element : Decoder α) (gap : Blanks) {v : Value}
    (hv : ∀ items, v ≠ .bracketed .list items) (r : List Char) :
    list element (gap.1 ++ (v.text ++ r)) = .error (mismatch "a sequence" (v.text ++ r)) := by
  obtain ⟨c, cs, htext, hc⟩ := v.text_cons
  rw [list, skipBlanks_text, htext]
  split
  · next h =>
    obtain ⟨items, hlist⟩ := hc.of_list (List.cons.inj h).1
    exact absurd hlist (hv items)
  · next h => cases h
  · rfl

/-- **A list is read for what its elements mean.** -/
theorem list_means (h : Means element meaning) : Means (list element) (Value.list? meaning) := by
  intro gap v
  by_cases hv : ∃ items, v = .bracketed .list items
  · obtain ⟨items, rfl⟩ := hv
    obtain ⟨fault, ho⟩ := elementsFrom_means h items true []
    refine ⟨fault, fun r _ => ?_⟩
    have hfuel : items.count < (items.text true ++ r).length + 1 := by
      have := items.count_lt true
      rw [List.length_append]
      omega
    rw [List.append_assoc, list_list, ho _ hfuel]
    simp [Value.list?]
  · obtain ⟨fault, hfault⟩ := settles_mismatch "a sequence" v
    refine ⟨fault, fun r hr => ?_⟩
    rw [List.append_assoc, list_other element gap (not_exists.mp hv), hfault r hr,
      Value.list?_other (not_exists.mp hv)]
    rfl

/-! ## Elements that are read -/

theorem elementsFrom_ok (h : Spells element) {fuel : Nat} {first : Bool} {read values : List α}
    {cs rest : List Char} (hfuel : cs.length < fuel)
    (hread : elementsFrom element fuel first read cs = .ok (values, rest)) :
    ∃ items : Items .list, cs = items.text first ++ rest := by
  induction fuel generalizing first read cs with
  | zero => omega
  | succ fuel ih =>
    rw [elementsFrom] at hread
    split at hread
    · cases hread
    · next hnext =>
      obtain ⟨gap, ds, rfl, rfl⟩ := nextElement_close_ok hnext
      have hend : endList (']' :: ds) = .ok ds := rfl
      rw [hend] at hread
      cases hread
      exact ⟨.close gap, by simp [Items.text, Bracket.closing]⟩
    · next ds _ hnext =>
      obtain ⟨gap, ahead, rfl⟩ := nextElement_item_ok hnext
      split at hread
      · cases hread
      · next hvalue =>
        obtain ⟨vgap, v, rfl⟩ := h hvalue
        obtain ⟨others, rfl⟩ := ih (by
          obtain ⟨c, cs, htext, -⟩ := v.text_cons
          simp only [List.length_append, htext, List.length_cons] at hfuel
          omega) hread
        exact ⟨.item gap (.element (ahead.append vgap)) v others, by
          simp only [Items.text, Key.text, Blanks.append, List.append_assoc]⟩

theorem list_spells (h : Spells element) : Spells (list element) := by
  intro cs values rest hread
  unfold list at hread
  split at hread
  · next ds hblanks =>
    obtain ⟨gap, hgap⟩ := eq_append_of_skipBlanks hblanks
    obtain ⟨items, rfl⟩ := elementsFrom_ok h (Nat.lt_succ_self _) hread
    exact ⟨gap, .bracketed .list items, hgap⟩
  · cases hread
  · cases hread

end CredentialRelay.Json
