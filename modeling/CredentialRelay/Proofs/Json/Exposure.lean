import CredentialRelay.Json.Decoder
import CredentialRelay.Proofs.Attempt

/-!
# Characters outside of strings

A string of a JSON text may hold any character but control characters. Outside of its strings a
text consists of blanks, brackets, separators, names and numbers, so any other character there keeps
it from being read, whatever kind of value is expected.

* `outside place cs`: the characters of a text that stand outside of strings.
* `Exposed place cs`: a replacement character is one of these.
* `Hides cs rest`: no replacement character is exposed between `cs` and `rest`. Every reader that
  succeeds hides what it read.

Results:
* `Shape.read_hides`: a record is read without an exposed replacement character.
* `decode_error_of_exposed`: a text with one is never decoded.
-/

namespace CredentialRelay.Json

/-- Where a character of a text stands. -/
inductive Place where
  | outside
  /-- In a string. -/
  | inside
  /-- In a string, behind a backslash. -/
  | escaped
  deriving Repr, DecidableEq

/-- Where the next character stands. -/
def Place.next : Place → Char → Place
  | .outside, c => if c = '"' then .inside else .outside
  | .inside, c => if c = '"' then .outside else if c = '\\' then .escaped else .inside
  | .escaped, _ => .inside

/-- The characters that stand outside of strings. -/
def outside : Place → List Char → List Char
  | _, [] => []
  | .outside, c :: cs => c :: outside (Place.outside.next c) cs
  | .inside, c :: cs => outside (Place.inside.next c) cs
  | .escaped, c :: cs => outside (Place.escaped.next c) cs

/-- Whether a replacement character stands outside of strings. -/
def Exposed (place : Place) (cs : List Char) : Prop :=
  '\uFFFD' ∈ outside place cs

instance (place : Place) (cs : List Char) : Decidable (Exposed place cs) :=
  inferInstanceAs (Decidable (_ ∈ _))

/-- A replacement character that is exposed in a text is exposed in its rest. -/
def Hides (cs rest : List Char) : Prop :=
  Exposed .outside cs → Exposed .outside rest

namespace Hides

theorem rfl {cs : List Char} : Hides cs cs := id

theorem trans {cs ds es : List Char} (h : Hides cs ds) (h' : Hides ds es) : Hides cs es :=
  h' ∘ h

/-- A character that is neither a replacement character nor a quote hides nothing. -/
theorem cons {c : Char} (hc : c ≠ '\uFFFD') (hq : c ≠ '"') (cs : List Char) :
    Hides (c :: cs) cs := by
  intro h
  rw [Exposed, outside, Place.next, if_neg hq] at h
  exact (List.mem_cons.mp h).resolve_left hc.symm

/-- Characters of a class without these two hide nothing. -/
theorem dropWhile {p : Char → Bool} (hp : p '\uFFFD' = false) (hq : p '"' = false) :
    ∀ cs : List Char, Hides cs (cs.dropWhile p)
  | [] => .rfl
  | c :: cs => by
    cases hc : p c with
    | false =>
      rw [List.dropWhile_cons_of_neg (by rw [hc]; exact Bool.false_ne_true)]
      exact .rfl
    | true =>
      rw [List.dropWhile_cons_of_pos hc]
      refine (cons ?_ ?_ cs).trans (dropWhile hp hq cs)
      · rintro rfl
        rw [hp] at hc
        cases hc
      · rintro rfl
        rw [hq] at hc
        cases hc

end Hides

/-- Behind an opening quote a text goes on in a string. -/
theorem exposed_quote {cs : List Char} : Exposed .outside ('"' :: cs) ↔ Exposed .inside cs := by
  unfold Exposed
  rw [outside, Place.next, if_pos rfl, List.mem_cons]
  exact or_iff_right (by decide)

/-- Blanks hide nothing. -/
theorem hides_skipBlanks {cs ds : List Char} (h : skipBlanks cs = ds) : Hides cs ds :=
  h ▸ .dropWhile (by decide) (by decide) cs

/-- Neither do blanks with another character behind them. -/
theorem hides_behind {c : Char} {cs ds : List Char} (h : skipBlanks cs = c :: ds)
    (hc : c ≠ '\uFFFD') (hq : c ≠ '"') : Hides cs ds :=
  (hides_skipBlanks h).trans (.cons hc hq ds)

/-! ## Strings -/

/-- Where the next character of a string stands. -/
def StringState.place : StringState → Place
  | .plain => .inside
  | .escape => .escaped
  | .hex .. => .inside
  | .pairBackslash _ => .inside
  | .pairU _ => .escaped

/-- A character that is neither a quote nor a backslash leaves a reader inside of a string. -/
theorem next_inside {c : Char} (hq : c ≠ '"') (hb : c ≠ '\\') : Place.inside.next c = .inside :=
  (if_neg hq).trans (if_neg hb)

/-- So does a digit. -/
theorem next_of_hexValue? {c : Char} (h : (hexValue? c).isSome = true) :
    Place.inside.next c = .inside := by
  have hq : hexValue? '"' = none := by decide
  have hb : hexValue? '\\' = none := by decide
  refine next_inside ?_ ?_
  · rintro rfl
    rw [hq] at h
    cases h
  · rintro rfl
    rw [hb] at h
    cases h

/-- **A string is left where it ends.** What is exposed in a string that was begun is exposed behind
its end. -/
theorem exposed_of_readStringFrom : ∀ {state : StringState} {read cs result rest : List Char},
    readStringFrom state read cs = .ok (result, rest) → Exposed state.place cs →
      Exposed .outside rest
  | .plain, _, [], _, _, h, _ => by cases h
  | .plain, read, c :: cs, result, rest, h, he => by
    change Exposed (Place.inside.next c) cs at he
    unfold readStringFrom at h
    split at h
    · next hc =>
      cases h
      rwa [Place.next, if_pos hc] at he
    · next hq =>
      split at h
      · next hb =>
        rw [Place.next, if_neg hq, if_pos hb] at he
        exact exposed_of_readStringFrom h he
      · next hb =>
        rw [next_inside hq hb] at he
        split at h
        · cases h
        · exact exposed_of_readStringFrom h he
  | .escape, _, [], _, _, h, _ => by cases h
  | .escape, read, c :: cs, result, rest, h, he => by
    change Exposed .inside cs at he
    unfold readStringFrom at h
    split at h
    · exact exposed_of_readStringFrom h he
    · split at h
      · exact exposed_of_readStringFrom h he
      · cases h
  | .hex .., _, [], _, _, h, _ => by cases h
  | .hex high start count value, read, c :: cs, result, rest, h, he => by
    change Exposed (Place.inside.next c) cs at he
    unfold readStringFrom at h
    split at h
    · cases h
    · next d hd =>
      rw [next_of_hexValue? (by rw [hd]; rfl)] at he
      simp only at h
      split at h
      · exact exposed_of_readStringFrom h he
      · split at h
        · exact exposed_of_readStringFrom h he
        · exact exposed_of_readStringFrom h he
        · cases h
  | .pairBackslash _, _, [], _, _, h, _ => by cases h
  | .pairBackslash high, read, c :: cs, result, rest, h, he => by
    change Exposed (Place.inside.next c) cs at he
    unfold readStringFrom at h
    split at h
    · next hc =>
      rw [Place.next, if_neg (by rw [hc]; decide), if_pos hc] at he
      exact exposed_of_readStringFrom h he
    · cases h
  | .pairU _, _, [], _, _, h, _ => by cases h
  | .pairU high, read, c :: cs, result, rest, h, he => by
    change Exposed .inside cs at he
    unfold readStringFrom at h
    split at h
    · exact exposed_of_readStringFrom h he
    · cases h

/-- A string that is read hides nothing behind its opening quote. -/
theorem readString_hides {cs rest : List Char} {text : String}
    (h : readString cs = .ok (text, rest)) : Hides ('"' :: cs) rest := by
  intro he
  unfold readString at h
  cases hr : readStringFrom .plain [] cs with
  | error fault =>
    rw [hr] at h
    cases h
  | ok read =>
    rw [hr] at h
    cases h
    exact exposed_of_readStringFrom hr (exposed_quote.mp he)

/-- Where the next character of a string that is passed over stands. -/
def SkipState.place : SkipState → Place
  | .plain => .inside
  | .escape => .escaped
  | .hex .. => .inside

theorem exposed_of_skipStringFrom : ∀ {state : SkipState} {cs rest : List Char},
    skipStringFrom state cs = .ok rest → Exposed state.place cs → Exposed .outside rest
  | .plain, [], _, h, _ => by cases h
  | .plain, c :: cs, rest, h, he => by
    change Exposed (Place.inside.next c) cs at he
    unfold skipStringFrom at h
    split at h
    · next hc =>
      cases h
      rwa [Place.next, if_pos hc] at he
    · next hq =>
      split at h
      · next hb =>
        rw [Place.next, if_neg hq, if_pos hb] at he
        exact exposed_of_skipStringFrom h he
      · next hb =>
        rw [next_inside hq hb] at he
        split at h
        · cases h
        · exact exposed_of_skipStringFrom h he
  | .escape, [], _, h, _ => by cases h
  | .escape, c :: cs, rest, h, he => by
    change Exposed .inside cs at he
    unfold skipStringFrom at h
    split at h
    · exact exposed_of_skipStringFrom h he
    · split at h
      · exact exposed_of_skipStringFrom h he
      · cases h
  | .hex .., [], _, h, _ => by cases h
  | .hex start count, c :: cs, rest, h, he => by
    change Exposed (Place.inside.next c) cs at he
    unfold skipStringFrom at h
    split at h
    · next hd =>
      rw [next_of_hexValue? hd] at he
      split at h
      · exact exposed_of_skipStringFrom h he
      · exact exposed_of_skipStringFrom h he
    · cases h

theorem skipString_hides {cs rest : List Char} (h : skipString cs = .ok rest) :
    Hides ('"' :: cs) rest :=
  fun he => exposed_of_skipStringFrom h (exposed_quote.mp he)

/-! ## Names, numbers and separators -/

theorem readName_hides : ∀ {name cs rest : List Char}, '\uFFFD' ∉ name → '"' ∉ name →
    readName name cs = .ok rest → Hides cs rest
  | [], _, _, _, _, h => by
    cases h
    exact .rfl
  | _ :: _, [], _, _, _, h => by cases h
  | n :: name, c :: cs, rest, hn, hq, h => by
    unfold readName at h
    split at h
    · next hc =>
      subst hc
      refine (Hides.cons ?_ ?_ cs).trans (readName_hides ?_ ?_ h)
      · exact fun heq => hn (heq ▸ List.mem_cons_self)
      · exact fun heq => hq (heq ▸ List.mem_cons_self)
      · exact fun hmem => hn (List.mem_cons_of_mem _ hmem)
      · exact fun hmem => hq (List.mem_cons_of_mem _ hmem)
    · cases h

/-- Digits hide nothing. -/
theorem hides_digits (cs : List Char) : Hides cs (cs.dropWhile Char.isDigit) :=
  .dropWhile (by decide) (by decide) cs

theorem hides_digit {c : Char} (h : c.isDigit = true) (cs : List Char) : Hides (c :: cs) cs := by
  refine Hides.cons ?_ ?_ cs
  · rintro rfl
    revert h
    decide
  · rintro rfl
    revert h
    decide

theorem skipExponent_hides {cs rest : List Char} (h : skipExponent cs = .ok rest) :
    Hides cs rest := by
  unfold skipExponent at h
  simp only at h
  split at h
  · cases h
  · next c ds hunsigned =>
    split at h
    · next hc =>
      cases h
      refine Hides.trans ?_ ((hides_digit hc ds).trans (hides_digits ds))
      rw [← hunsigned]
      split
      · exact .cons (by decide) (by decide) _
      · exact .cons (by decide) (by decide) _
      · exact .rfl
    · cases h

theorem skipNumberTail_hides {cs rest : List Char} (h : skipNumberTail cs = .ok rest) :
    Hides cs rest := by
  unfold skipNumberTail at h
  split at h
  · next ds =>
    simp only at h
    refine (Hides.cons (by decide) (by decide) ds).trans ((hides_digits ds).trans ?_)
    split at h
    · cases h
    · split at h
      · next es hes =>
        rw [hes]
        exact (Hides.cons (by decide) (by decide) es).trans (skipExponent_hides h)
      · next es hes =>
        rw [hes]
        exact (Hides.cons (by decide) (by decide) es).trans (skipExponent_hides h)
      · cases h
        exact .rfl
  · next ds => exact (Hides.cons (by decide) (by decide) ds).trans (skipExponent_hides h)
  · next ds => exact (Hides.cons (by decide) (by decide) ds).trans (skipExponent_hides h)
  · cases h
    exact .rfl

theorem skipNumber_hides {cs rest : List Char} (h : skipNumber cs = .ok rest) : Hides cs rest := by
  unfold skipNumber at h
  split at h
  · cases h
  · next c ds =>
    split at h
    · next hzero =>
      subst hzero
      refine (Hides.cons (by decide) (by decide) ds).trans ?_
      split at h
      · split at h
        · cases h
        · exact skipNumberTail_hides h
      · cases h
        exact .rfl
    · split at h
      · next hc =>
        exact (hides_digit hc ds).trans ((hides_digits ds).trans (skipNumberTail_hides h))
      · cases h

/-! ## Values that are passed over -/

theorem skipScalar_hides {cs rest : List Char} (h : skipScalar cs = .ok rest) : Hides cs rest := by
  unfold skipScalar at h
  split at h
  · exact (Hides.cons (by decide) (by decide) _).trans (readName_hides (by decide) (by decide) h)
  · exact (Hides.cons (by decide) (by decide) _).trans (readName_hides (by decide) (by decide) h)
  · exact (Hides.cons (by decide) (by decide) _).trans (readName_hides (by decide) (by decide) h)
  · exact (Hides.cons (by decide) (by decide) _).trans (skipNumber_hides h)
  · exact skipString_hides h
  · cases h
  · split at h
    · exact skipNumber_hides h
    · cases h

theorem readColon_hides {cs rest : List Char} (h : readColon cs = .ok rest) : Hides cs rest := by
  unfold readColon at h
  split at h
  · next ds hds =>
    cases h
    exact hides_behind hds (by decide) (by decide)
  · cases h
  · cases h

theorem skipKey_hides {bracket : Bracket} {cs rest : List Char}
    (h : skipKey bracket cs = .ok rest) : Hides cs rest := by
  cases bracket with
  | list =>
    cases h
    exact .rfl
  | object =>
    rw [skipKey] at h
    split at h
    · next ds hds =>
      obtain ⟨es, hes, hrest⟩ := bind_ok h
      exact (hides_skipBlanks hds).trans ((skipString_hides hes).trans (readColon_hides hrest))
    · cases h
    · cases h

/-- A closing bracket hides nothing. -/
theorem hides_closing {bracket : Bracket} {c : Char} (h : bracket.closedBy c = true)
    (cs : List Char) : Hides (c :: cs) cs := by
  cases bracket with
  | list =>
    rw [eq_of_beq h]
    exact .cons (by decide) (by decide) cs
  | object =>
    rw [eq_of_beq h]
    exact .cons (by decide) (by decide) cs

/-- **Passing over values hides nothing**, step by step. -/
theorem skipFrom_hides : ∀ {fuel : Nat} {step : SkipStep} {stack : List Bracket}
    {cs rest : List Char}, skipFrom fuel step stack cs = .ok rest → Hides cs rest
  | 0, _, _, _, _, h => by
    cases h
    exact .rfl
  | fuel + 1, .value, stack, cs, rest, h => by
    rw [skipFrom] at h
    split at h
    · next ds hds => exact (hides_behind hds (by decide) (by decide)).trans (skipFrom_hides h)
    · next ds hds => exact (hides_behind hds (by decide) (by decide)).trans (skipFrom_hides h)
    · split at h
      · next es hes =>
        exact (hides_skipBlanks rfl).trans ((skipScalar_hides hes).trans (skipFrom_hides h))
      · cases h
  | _ + 1, .first, [], _, _, h => by
    cases h
    exact .rfl
  | _ + 1, .more, [], _, _, h => by
    cases h
    exact .rfl
  | fuel + 1, .first, bracket :: stack, cs, rest, h => by
    rw [skipFrom] at h
    split at h
    · cases h
    · next c ds hds =>
      refine (hides_skipBlanks hds).trans ?_
      split at h
      · next hc => exact (hides_closing hc ds).trans (skipFrom_hides h)
      · split at h
        · next es hes => exact (skipKey_hides hes).trans (skipFrom_hides h)
        · cases h
  | fuel + 1, .more, bracket :: stack, cs, rest, h => by
    rw [skipFrom] at h
    split at h
    · cases h
    · next c ds hds =>
      split at h
      · next hcomma =>
        subst hcomma
        refine (hides_behind hds (by decide) (by decide)).trans ?_
        split at h
        · next es hes => exact (skipKey_hides hes).trans (skipFrom_hides h)
        · cases h
      · refine (hides_skipBlanks hds).trans ?_
        split at h
        · next hc => exact (hides_closing hc ds).trans (skipFrom_hides h)
        · cases h

theorem skipValue_hides {cs rest : List Char} (h : skipValue cs = .ok rest) : Hides cs rest :=
  skipFrom_hides h

/-! ## Values that are decoded -/

/-- A decoder that hides nothing of what it reads. -/
def HidesNothing {α : Type} (decoder : Decoder α) : Prop :=
  ∀ ⦃cs : List Char⦄ ⦃value : α⦄ ⦃rest : List Char⦄, decoder cs = .ok (value, rest) → Hides cs rest

variable {α σ : Type}

theorem text_hides : HidesNothing text := by
  intro cs value rest h
  unfold text at h
  split at h
  · next ds hds => exact (hides_skipBlanks hds).trans (readString_hides h)
  · cases h
  · cases h

/-- Changing what a decoder gives hides nothing more. -/
theorem HidesNothing.map {decoder : Decoder α} (hd : HidesNothing decoder) (f : α → σ) :
    HidesNothing fun cs => (decoder cs).map fun (value, rest) => (f value, rest) := by
  intro cs value rest h
  simp only at h
  cases hr : decoder cs with
  | error fault =>
    rw [hr] at h
    cases h
  | ok read =>
    rw [hr] at h
    cases h
    exact hd hr

theorem orDefault_hides {default : α} {decoder : Decoder α} (hd : HidesNothing decoder) :
    HidesNothing (orDefault default decoder) := by
  intro cs value rest h
  unfold orDefault at h
  split at h
  · next ds hds =>
    refine (hides_behind hds (by decide) (by decide)).trans ?_
    cases hr : readName ['u', 'l', 'l'] ds with
    | error fault =>
      rw [hr] at h
      cases h
    | ok es =>
      rw [hr] at h
      cases h
      exact readName_hides (by decide) (by decide) hr
  · exact (hides_skipBlanks rfl).trans (hd h)

/-! ## Members and elements -/

/-- Going to the next key hides nothing up to its quote, nor does leaving the object. -/
theorem nextKey_hides {first : Bool} {cs rest : List Char} {next : Option (List Char)}
    (h : nextKey first cs = .ok (next, rest)) : Hides cs ((next.map ('"' :: ·)).getD rest) := by
  unfold nextKey at h
  split at h
  · cases h
  · next c ds hds =>
    refine (hides_skipBlanks hds).trans ?_
    split at h
    · next hc =>
      cases h
      exact hc ▸ Hides.cons (by decide) (by decide) _
    · split at h
      · split at h
        · next hq =>
          cases h
          exact hq ▸ Hides.rfl
        · cases h
      · split at h
        · next hcomma =>
          refine hcomma ▸ (Hides.cons (by decide) (by decide) ds).trans ?_
          split at h
          · next es hes =>
            cases h
            exact hides_skipBlanks hes
          · cases h
          · cases h
          · cases h
        · cases h

theorem membersFrom_hides {member : σ → String → Decoder σ}
    (hm : ∀ s key, HidesNothing (member s key)) : ∀ {fuel : Nat} {first : Bool} {s : σ},
    HidesNothing (membersFrom member fuel first s)
  | 0, _, _, _, _, _, h => by
    cases h
    exact .rfl
  | fuel + 1, first, s, cs, value, rest, h => by
    rw [membersFrom] at h
    split at h
    · cases h
    · next ds hds =>
      cases h
      exact nextKey_hides hds
    · next ds _ hds =>
      have hkey : Hides cs ('"' :: ds) := nextKey_hides hds
      split at h
      · cases h
      · next key es hes =>
        split at h
        · cases h
        · next t gs hgs =>
          exact hkey.trans ((readString_hides hes).trans
            ((hm s key hgs).trans (membersFrom_hides hm h)))

/-- An object that is read hides nothing if its members hide nothing. -/
theorem members_hides {member : σ → String → Decoder σ}
    (hm : ∀ s key, HidesNothing (member s key)) (s : σ) : HidesNothing (members member s) :=
  fun _ _ _ h => membersFrom_hides hm h

theorem dictionary_hides {add : σ → String → α → σ} {start : σ} {value : Decoder α}
    (hv : HidesNothing value) : HidesNothing (dictionary add start value) := by
  intro cs result rest h
  unfold dictionary at h
  simp only at h
  split at h
  · next ds hds =>
    refine (hides_behind hds (by decide) (by decide)).trans (members_hides ?_ start h)
    intro s key es v gs hes
    simp only at hes
    split at hes
    · cases hes
    · next fs hfs => exact (readColon_hides hfs).trans (hv.map (add s key) hes)
  · cases h
  · cases h

/-- Going to the next element hides nothing, nor does finding the end of the list. -/
theorem nextElement_hides {first : Bool} {cs rest : List Char} {next : Option (List Char)}
    (h : nextElement first cs = .ok (next, rest)) : Hides cs (next.getD rest) := by
  unfold nextElement at h
  split at h
  · cases h
  · next c ds hds =>
    refine (hides_skipBlanks hds).trans ?_
    split at h
    · cases h
      exact .rfl
    · split at h
      · cases h
        exact .rfl
      · split at h
        · next hcomma =>
          refine hcomma ▸ (Hides.cons (by decide) (by decide) ds).trans ?_
          split at h
          · cases h
          · cases h
          · cases h
            exact hides_skipBlanks rfl
        · cases h

theorem endList_hides {cs rest : List Char} (h : endList cs = .ok rest) : Hides cs rest := by
  unfold endList at h
  split at h
  · next ds hds =>
    cases h
    exact hides_behind hds (by decide) (by decide)
  · split at h
    · cases h
    · cases h
  · cases h
  · cases h

/-! ## Records -/

namespace Shape

variable {shape : Shape σ}

/-- Whether every field of a record hides nothing. -/
def HidesNothing (shape : Shape σ) : Prop :=
  ∀ field ∈ shape.fields, ∀ s, Json.HidesNothing (field.read s)

theorem member_hides (hs : shape.HidesNothing) (known : σ × List String) (key : String) :
    Json.HidesNothing (shape.member known key) := by
  intro cs value rest h
  unfold member at h
  split at h
  · next field hfield =>
    split at h
    · cases h
    · split at h
      · cases h
      · next ds hds =>
        split at h
        · cases h
        · next t es hes =>
          cases h
          exact (readColon_hides hds).trans (hs field (List.mem_of_find?_eq_some hfield) _ hes)
  · split at h
    · cases h
    · next ds hds =>
      split at h
      · cases h
      · next es hes =>
        cases h
        exact (readColon_hides hds).trans (skipValue_hides hes)

/-- Leaving a list hides nothing. -/
theorem map_endList_hides {cs rest : List Char} {s value : σ}
    (h : (endList cs).map (fun rest => (s, rest)) = .ok (value, rest)) : Hides cs rest := by
  cases hr : endList cs with
  | error fault =>
    rw [hr] at h
    cases h
  | ok ds =>
    rw [hr] at h
    cases h
    exact endList_hides hr

theorem positions_hides : ∀ {fields : List (Member σ)} {index : Nat} {s : σ},
    (∀ field ∈ fields, ∀ s, Json.HidesNothing (field.read s)) →
      Json.HidesNothing (shape.positions index fields s)
  | [], _, _, _, _, _, _, h => map_endList_hides h
  | field :: fields, index, s, hf, cs, value, rest, h => by
    rw [positions] at h
    split at h
    · cases h
    · next ds hds =>
      have hnext : Hides cs ds := nextElement_hides hds
      split at h
      · cases h
      · exact hnext.trans (map_endList_hides h)
    · next ds _ hds =>
      have hnext : Hides cs ds := nextElement_hides hds
      split at h
      · cases h
      · next t es hes =>
        exact hnext.trans ((hf field List.mem_cons_self s hes).trans
          (positions_hides (fun other ho => hf other (List.mem_cons_of_mem _ ho)) h))

/-- **A record is read without an exposed replacement character**, in either of its forms. -/
theorem read_hides (hs : shape.HidesNothing) (start : σ) :
    Json.HidesNothing (shape.read start) := by
  intro cs value rest h
  unfold read at h
  split at h
  · cases h
  · next ds hds =>
    refine (hides_behind hds (by decide) (by decide)).trans ?_
    split at h
    · exact positions_hides hs h
    · cases h
  · next ds hds =>
    refine (hides_behind hds (by decide) (by decide)).trans ?_
    split at h
    · cases h
    · next t seen es hes =>
      split at h
      · cases h
      · cases h
        exact members_hides (member_hides hs) _ hes
  · cases h

end Shape

/-- **A text with an exposed replacement character is never decoded.** -/
theorem decode_error_of_exposed {decoder : Decoder α} (hd : HidesNothing decoder) {text : String}
    (he : Exposed .outside text.toList) : ∃ fault, decode decoder text = .error fault := by
  unfold decode
  cases hr : decoder text.toList with
  | error fault => exact ⟨fault, rfl⟩
  | ok read =>
    obtain ⟨value, rest⟩ := read
    have hrest : Exposed .outside rest := hd hr he
    cases hblanks : skipBlanks rest with
    | nil => cases hides_skipBlanks hblanks hrest
    | cons c cs =>
      simp only [hblanks]
      exact ⟨_, rfl⟩

end CredentialRelay.Json
