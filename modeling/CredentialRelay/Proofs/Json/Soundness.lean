import CredentialRelay.Json.Bytes
import CredentialRelay.Proofs.Attempt
import CredentialRelay.Proofs.Json.Passing

/-!
# What is read is of the grammar

A reader that succeeds has read blanks and one value of the grammar. So nothing but JSON is decoded,
and a text is decoded exactly if it is the text of a value that means something.

A string or a number that is read might as well be passed over, so what is known of that holds of
both.

* `Spells read`: a reader that succeeds has read blanks and a value.
* `SpellsMembers member`: a reader of members that succeeds has read a colon and a value.
* `Holds text v`: the text holds the value and nothing else.

Results:
* `text_spells`, `numberAs_spells`: a string or a number that is read is one.
* `Shape.read_spells`: what is read of a record is a value, if that is so of its fields.
* `decode_holds`: a text that holds a value is decoded to what the value means.
* `decode_ok_iff`: no other text is decoded.
-/

namespace CredentialRelay.Json

variable {α σ : Type} {cs rest : List Char}

/-! ## Strings that are read -/

/-- Where a reader that passes over a string is when one that reads it is somewhere. -/
def StringState.skip : StringState → SkipState
  | .plain => .plain
  | .escape => .escape
  | .hex _ start count _ => .hex start count
  | .pairBackslash _ => .plain
  | .pairU _ => .escape

/-- A text in which a string may be passed over wherever it is read. -/
def SkipsRead (cs : List Char) : Prop :=
  ∀ ⦃state : StringState⦄ ⦃read said rest : List Char⦄,
    readStringFrom state read cs = .ok (said, rest) → skipStringFrom state.skip cs = .ok rest

section

variable {c : Char} {read said : List Char}

theorem skip_plain (hskips : SkipsRead cs)
    (h : readStringFrom .plain read (c :: cs) = .ok (said, rest)) :
    skipStringFrom .plain (c :: cs) = .ok rest := by
  rw [readStringFrom] at h
  rw [skipStringFrom]
  split at h
  · next hquote =>
    cases h
    rw [if_pos hquote]
  · next hquote =>
    rw [if_neg hquote]
    split at h
    · next hbackslash =>
      rw [if_pos hbackslash]
      exact hskips h
    · next hbackslash =>
      rw [if_neg hbackslash]
      split at h
      · cases h
      · next hcontrol =>
        rw [if_neg hcontrol]
        exact hskips h

theorem skip_escape (hskips : SkipsRead cs)
    (h : readStringFrom .escape read (c :: cs) = .ok (said, rest)) :
    skipStringFrom .escape (c :: cs) = .ok rest := by
  rw [readStringFrom] at h
  rw [skipStringFrom]
  split at h
  · next d hd =>
    rw [hd, if_pos (by rfl)]
    exact hskips h
  · next hnone =>
    rw [hnone, if_neg (by simp)]
    split at h
    · next hu =>
      rw [if_pos hu]
      exact hskips h
    · cases h

theorem skip_hex (hskips : SkipsRead cs) {high : Option Nat} {start : List Char} {count value : Nat}
    (h : readStringFrom (.hex high start count value) read (c :: cs) = .ok (said, rest)) :
    skipStringFrom (.hex start count) (c :: cs) = .ok rest := by
  rw [readStringFrom] at h
  rw [skipStringFrom]
  split at h
  · cases h
  · next d hd =>
    rw [hd, if_pos (by rfl)]
    simp only at h
    split at h
    · next hthree =>
      rw [if_pos hthree]
      exact hskips h
    · next hthree =>
      rw [if_neg hthree]
      split at h
      · exact hskips h
      · exact hskips h
      · cases h

/-- The backslash of the second half of a pair might as well begin an escape of its own. -/
theorem skip_pairBackslash (hskips : SkipsRead cs) {high : Nat}
    (h : readStringFrom (.pairBackslash high) read (c :: cs) = .ok (said, rest)) :
    skipStringFrom .plain (c :: cs) = .ok rest := by
  rw [readStringFrom] at h
  rw [skipStringFrom]
  split at h
  · next hbackslash =>
    rw [if_neg (by rw [hbackslash]; decide), if_pos hbackslash]
    exact hskips h
  · cases h

theorem skip_pairU (hskips : SkipsRead cs) {high : Nat}
    (h : readStringFrom (.pairU high) read (c :: cs) = .ok (said, rest)) :
    skipStringFrom .escape (c :: cs) = .ok rest := by
  rw [readStringFrom] at h
  rw [skipStringFrom]
  split at h
  · next hu =>
    rw [if_neg (by rw [hu]; decide), if_pos hu]
    exact hskips h
  · cases h

end

/-- A string that is read may be passed over. -/
theorem skipsRead (cs : List Char) : SkipsRead cs := by
  induction cs with
  | nil =>
    intro state read said rest h
    cases state <;> cases h
  | cons c cs hskips =>
    intro state read said rest h
    cases state with
    | plain => exact skip_plain hskips h
    | escape => exact skip_escape hskips h
    | hex high start count value => exact skip_hex hskips h
    | pairBackslash high => exact skip_pairBackslash hskips h
    | pairU high => exact skip_pairU hskips h

theorem readString_ok {said : String} (h : readString cs = .ok (said, rest)) :
    ∃ glyphs, cs = stringText glyphs ++ rest := by
  unfold readString at h
  cases hread : readStringFrom .plain [] cs with
  | error fault =>
    rw [hread] at h
    cases h
  | ok result =>
    rw [hread] at h
    cases h
    exact skipString_ok (skipsRead cs hread)

/-! ## Reading -/

/-- A reader that succeeds has read blanks and one value. -/
def Spells (read : Decoder α) : Prop :=
  ∀ ⦃cs value rest⦄, read cs = .ok (value, rest) →
    ∃ (gap : Blanks) (v : Value), cs = gap.1 ++ (v.text ++ rest)

/-- What is behind the changed value of a reader is behind its value. -/
theorem map_outcome_ok {β : Type} {f : α → β} {x : Outcome α} {value : β}
    (h : (x.map fun (v, rest) => (f v, rest)) = .ok (value, rest)) :
    ∃ first, x = .ok (first, rest) := by
  cases x with
  | error fault => cases h
  | ok result =>
    cases h
    exact ⟨result.1, rfl⟩

theorem Spells.map {β : Type} {read : Decoder α} (h : Spells read) (f : α → β) :
    Spells fun cs => (read cs).map fun (value, rest) => (f value, rest) := by
  intro cs value rest hread
  obtain ⟨first, hfirst⟩ := map_outcome_ok hread
  exact h hfirst

theorem text_spells : Spells text := by
  intro cs value rest h
  unfold text at h
  split at h
  · next ds hblanks =>
    obtain ⟨gap, hgap⟩ := eq_append_of_skipBlanks hblanks
    obtain ⟨glyphs, rfl⟩ := readString_ok h
    exact ⟨gap, .scalar (.string glyphs), hgap⟩
  · cases h
  · cases h

/-! ## Numbers that are read -/

theorem floating_ok {negative : Bool} {significand : Nat} {exponent : Int} {n : Number}
    (h : floating negative significand exponent cs = .ok (n, rest)) : rest = cs := by
  unfold floating at h
  split at h
  · cases h
    rfl
  · cases h

theorem whole_ok {negative : Bool} {m : Nat} {n : Number}
    (h : whole negative m cs = .ok (n, rest)) : rest = cs := by
  unfold whole at h
  split at h
  · cases h
    rfl
  · split at h
    · exact floating_ok h
    · cases h
      rfl

/-- The digits of an exponent that is too large are passed over with the others. -/
theorem readExponentDigits_rest (value : Nat) (cs : List Char) :
    (∀ result rest, readExponentDigits value cs = .ok (result, rest) →
      rest = cs.dropWhile Char.isDigit) ∧
    (∀ rest, readExponentDigits value cs = .error rest →
      rest.dropWhile Char.isDigit = cs.dropWhile Char.isDigit) := by
  induction cs generalizing value with
  | nil =>
    refine ⟨fun _ _ h => ?_, fun _ h => ?_⟩
    · cases h
      rfl
    · cases h
  | cons c cs ih =>
    by_cases hc : c.isDigit = true
    · rw [List.dropWhile_cons_of_pos hc]
      rw [readExponentDigits, if_pos hc]
      by_cases hnext : value * 10 + Text.digitValue c < Word.size31
      · rw [if_pos hnext]
        exact ih _
      · rw [if_neg hnext]
        refine ⟨fun _ _ h => ?_, fun _ h => ?_⟩
        · cases h
        · cases h
          rfl
    · rw [List.dropWhile_cons_of_neg hc]
      rw [readExponentDigits, if_neg hc]
      refine ⟨fun _ _ h => ?_, fun _ h => ?_⟩
      · cases h
        rfl
      · cases h

/-- The sign of an exponent, and what stands behind it. -/
def readSign : List Char → Bool × List Char
  | '+' :: rest => (false, rest)
  | '-' :: rest => (true, rest)
  | rest => (false, rest)

theorem readSign_snd (cs : List Char) : (readSign cs).2 = behindSign cs := by
  unfold readSign
  split
  · rfl
  · rfl
  · next hplus hminus => exact (behindSign_eq hplus hminus).symm

/-- Reads on after the sign of an exponent. -/
def readBehindSign (negative : Bool) (significand : Nat) (exponent : Int) (down : Bool) :
    Decoder Number
  | [] => .error (Cause.endInValue.here [])
  | c :: rest =>
    if c.isDigit then
      match readExponentDigits (Text.digitValue c) rest with
      | .ok (value, rest) =>
        floating negative significand (if down then exponent - value else exponent + value) rest
      | .error rest =>
        if significand ≠ 0 ∧ down = false then .error (Cause.numberOutOfRange.here rest)
        else .ok (.floating negative ⟨0, Binary64.minExponent⟩, rest.dropWhile Char.isDigit)
    else .error (Cause.invalidNumber.next (c :: rest))

theorem readExponent_eq (negative : Bool) (significand : Nat) (exponent : Int) (cs : List Char) :
    readExponent negative significand exponent cs =
      readBehindSign negative significand exponent (readSign cs).1 (readSign cs).2 :=
  rfl

/-- The digits of an exponent that is read are passed over. -/
theorem skipExponentDigits_of_readBehindSign {negative down : Bool} {significand : Nat}
    {exponent : Int} {n : Number}
    (h : readBehindSign negative significand exponent down cs = .ok (n, rest)) :
    skipExponentDigits cs = .ok rest := by
  cases cs with
  | nil => cases h
  | cons c ds =>
    rw [readBehindSign] at h
    rw [skipExponentDigits]
    split at h
    · next hdigit =>
      rw [if_pos hdigit]
      obtain ⟨hall, hsome⟩ := readExponentDigits_rest (Text.digitValue c) ds
      split at h
      · next hdigits => rw [floating_ok h, hall _ _ hdigits]
      · next hdigits =>
        split at h
        · cases h
        · cases h
          rw [hsome _ hdigits]
    · cases h

/-- An exponent that is read may be passed over. -/
theorem skipExponent_of_readExponent {negative : Bool} {significand : Nat} {exponent : Int}
    {n : Number} (h : readExponent negative significand exponent cs = .ok (n, rest)) :
    skipExponent cs = .ok rest := by
  rw [readExponent_eq] at h
  rw [skipExponent_eq, ← readSign_snd]
  exact skipExponentDigits_of_readBehindSign h

/-- Where no exponent begins behind the digits, the number ends. -/
theorem readBehindDigits_eq {negative : Bool} {significand : Nat} {exponent : Int}
    (he : ∀ ds, cs ≠ 'e' :: ds) (hE : ∀ ds, cs ≠ 'E' :: ds) :
    readBehindDigits negative significand exponent cs =
      floating negative significand exponent cs := by
  unfold readBehindDigits
  split
  · exact absurd rfl (he _)
  · exact absurd rfl (hE _)
  · rfl

/-- Behind the digits of a number that is read, its exponent may be passed over if it has one. -/
theorem skip_of_readBehindDigits {negative : Bool} {significand : Nat} {exponent : Int} {n : Number}
    (h : readBehindDigits negative significand exponent cs = .ok (n, rest)) :
    (match cs with
      | 'e' :: rest => skipExponent rest
      | 'E' :: rest => skipExponent rest
      | rest => .ok rest) = Except.ok rest := by
  by_cases he : ∃ ds, cs = 'e' :: ds
  · obtain ⟨ds, rfl⟩ := he
    exact skipExponent_of_readExponent h
  by_cases hE : ∃ ds, cs = 'E' :: ds
  · obtain ⟨ds, rfl⟩ := hE
    exact skipExponent_of_readExponent h
  · rw [readBehindDigits_eq (not_exists.mp he) (not_exists.mp hE)] at h
    obtain rfl := floating_ok h
    split
    · exact absurd ⟨_, rfl⟩ he
    · exact absurd ⟨_, rfl⟩ hE
    · rfl

/-- A fraction that is read may be passed over, with the point before it. -/
theorem skipNumberTail_of_readFraction {negative : Bool} {significand : Nat} {exponent : Int}
    {n : Number} (h : readFraction negative significand exponent cs = .ok (n, rest)) :
    skipNumberTail ('.' :: cs) = .ok rest := by
  unfold readFraction at h
  by_cases hdigits : (cs.takeWhile Char.isDigit).isEmpty = true
  · rw [if_pos hdigits] at h
    cases h
  · rw [if_neg hdigits] at h
    exact (if_neg hdigits).trans (skip_of_readBehindDigits h)

theorem skipNumberTail_of_readNumberTail {negative : Bool} {significand dropped : Nat} {n : Number}
    (h : readNumberTail negative significand dropped cs = .ok (n, rest)) :
    skipNumberTail cs = .ok rest := by
  unfold readNumberTail at h
  split at h
  · exact skipNumberTail_of_readFraction h
  · exact skipExponent_of_readExponent h
  · exact skipExponent_of_readExponent h
  · next hpoint he hE =>
    have hrest : rest = cs := by
      split at h
      · exact whole_ok h
      · exact floating_ok h
    rw [hrest]
    unfold skipNumberTail
    split
    · exact absurd rfl (hpoint _)
    · exact absurd rfl (he _)
    · exact absurd rfl (hE _)
    · rfl

/-- **A number that is read may be passed over.** -/
theorem skipNumber_of_readNumber {negative : Bool} {n : Number}
    (h : readNumber negative cs = .ok (n, rest)) : skipNumber cs = .ok rest := by
  cases cs with
  | nil => cases h
  | cons c ds =>
    simp only [readNumber] at h
    simp only [skipNumber]
    split at h
    · next hzero =>
      rw [if_pos hzero]
      cases ds with
      | nil => exact skipNumberTail_of_readNumberTail h
      | cons d ds =>
        simp only at h ⊢
        split at h
        · cases h
        · next hdigit =>
          rw [if_neg hdigit]
          exact skipNumberTail_of_readNumberTail h
    · next hzero =>
      rw [if_neg hzero]
      split at h
      · next hdigit =>
        rw [if_pos hdigit]
        exact skipNumberTail_of_readNumberTail h
      · cases h

/-- A number of which something is made may be passed over. -/
theorem skipNumber_of_made {parse : Number → Except Cause α} {negative : Bool} {value : α}
    (h : (match readNumber negative cs with
      | .error fault => .error fault
      | .ok (n, rest) => match parse n with
        | .ok value => .ok (value, rest)
        | .error cause => .error (cause.here rest)) = Except.ok (value, rest)) :
    skipNumber cs = .ok rest := by
  cases hread : readNumber negative cs with
  | error fault =>
    rw [hread] at h
    cases h
  | ok found =>
    rw [hread] at h
    obtain ⟨n, behind⟩ := found
    simp only at h
    cases hparse : parse n with
    | error cause =>
      rw [hparse] at h
      cases h
    | ok made =>
      rw [hparse] at h
      cases h
      exact skipNumber_of_readNumber hread

theorem numberAs_spells (expected : String) (parse : Number → Except Cause α) :
    Spells (numberAs expected parse) := by
  intro cs value rest h
  unfold numberAs at h
  simp only at h
  split at h
  · next ds hblanks =>
    obtain ⟨gap, hgap⟩ := eq_append_of_skipBlanks hblanks
    obtain ⟨n, hnegative, rfl⟩ := skipNumber_ok true (skipNumber_of_made h)
    exact ⟨gap, .scalar (.number n), by
      simp [hgap, Value.text, Scalar.text, Numeral.text, hnegative]⟩
  · cases h
  · next c ds hsign hblanks =>
    obtain ⟨gap, hgap⟩ := eq_append_of_skipBlanks hblanks
    split at h
    · obtain ⟨n, hnegative, hn⟩ := skipNumber_ok false (skipNumber_of_made h)
      exact ⟨gap, .scalar (.number n), by
        simp [hgap, hn, Value.text, Scalar.text, Numeral.text, hnegative]⟩
    · cases h

/-! ## Members and elements that are read -/

/-- A reader of members that succeeds has read a colon and one value. -/
def SpellsMembers (member : σ → String → Decoder σ) : Prop :=
  ∀ ⦃s name cs s' rest⦄, member s name cs = .ok (s', rest) →
    ∃ (behind gap : Blanks) (v : Value), cs = behind.1 ++ ':' :: (gap.1 ++ (v.text ++ rest))

theorem nextKey_close_ok {first : Bool} (h : nextKey first cs = .ok (none, rest)) :
    ∃ gap : Blanks, cs = gap.1 ++ '\x7d' :: rest := by
  unfold nextKey at h
  split at h
  · cases h
  · next c ds hblanks =>
    split at h
    · next hclosing =>
      cases h
      rw [hclosing] at hblanks
      exact eq_append_of_skipBlanks hblanks
    · split at h
      · split at h <;> cases h
      · split at h
        · split at h <;> cases h
        · cases h

theorem nextKey_item_ok {first : Bool} {ds : List Char}
    (h : nextKey first cs = .ok (some ds, rest)) :
    ∃ gap ahead : Blanks, cs = gap.1 ++ (separator first ++ (ahead.1 ++ '"' :: ds)) := by
  unfold nextKey at h
  split at h
  · cases h
  · next c es hblanks =>
    obtain ⟨gap, hgap⟩ := eq_append_of_skipBlanks hblanks
    split at h
    · cases h
    · split at h
      · next hfirst =>
        split at h
        · next hquote =>
          cases h
          exact ⟨gap, Blanks.none, by rw [hgap, hquote, hfirst]; rfl⟩
        · cases h
      · next hfirst =>
        split at h
        · next hcomma =>
          split at h
          · next fs hquote =>
            cases h
            obtain ⟨ahead, hahead⟩ := eq_append_of_skipBlanks hquote
            refine ⟨gap, ahead, ?_⟩
            rw [hgap, hcomma, hahead, eq_false_of_ne_true hfirst]
            rfl
          · cases h
          · cases h
          · cases h
        · cases h

theorem membersFrom_ok {member : σ → String → Decoder σ} (hmember : SpellsMembers member)
    {fuel : Nat} {first : Bool} {s s' : σ} (hfuel : cs.length < fuel)
    (h : membersFrom member fuel first s cs = .ok (s', rest)) :
    ∃ items : Items .object, cs = items.text first ++ rest := by
  induction fuel generalizing first s cs with
  | zero => omega
  | succ fuel ih =>
    rw [membersFrom] at h
    split at h
    · cases h
    · next hkey =>
      cases h
      obtain ⟨gap, rfl⟩ := nextKey_close_ok hkey
      exact ⟨.close gap, by simp [Items.text, Bracket.closing]⟩
    · next ds _ hkey =>
      obtain ⟨gap, ahead, rfl⟩ := nextKey_item_ok hkey
      split at h
      · cases h
      · next hname =>
        obtain ⟨name, rfl⟩ := readString_ok hname
        split at h
        · cases h
        · next hread =>
          obtain ⟨behind, vgap, v, rfl⟩ := hmember hread
          obtain ⟨others, rfl⟩ := ih (by
            simp only [List.length_append, List.length_cons] at hfuel
            omega) h
          exact ⟨.item gap (.member ahead name behind vgap) v others,
            (Items.text_member gap ahead name behind vgap v others first rest).symm⟩

/-- Blanks behind others. -/
def Blanks.append (gap other : Blanks) : Blanks :=
  ⟨gap.1 ++ other.1, fun c h => (List.mem_append.mp h).elim (gap.2 c) (other.2 c)⟩

/-- The closing bracket of a list, behind blanks. -/
theorem endList_ok (h : endList cs = .ok rest) : ∃ gap : Blanks, cs = gap.1 ++ ']' :: rest := by
  unfold endList at h
  split at h
  · next hblanks =>
    cases h
    exact eq_append_of_skipBlanks hblanks
  · split at h <;> cases h
  · cases h
  · cases h

theorem nextElement_close_ok {first : Bool} (h : nextElement first cs = .ok (none, rest)) :
    ∃ (gap : Blanks) (ds : List Char), cs = gap.1 ++ ']' :: ds ∧ rest = ']' :: ds := by
  unfold nextElement at h
  split at h
  · cases h
  · next c ds hblanks =>
    split at h
    · next hclosing =>
      cases h
      rw [hclosing] at hblanks ⊢
      obtain ⟨gap, hgap⟩ := eq_append_of_skipBlanks hblanks
      exact ⟨gap, ds, hgap, rfl⟩
    · split at h
      · cases h
      · split at h
        · split at h <;> cases h
        · cases h

theorem nextElement_item_ok {first : Bool} {ds : List Char}
    (h : nextElement first cs = .ok (some ds, rest)) :
    ∃ gap ahead : Blanks, cs = gap.1 ++ (separator first ++ (ahead.1 ++ ds)) := by
  unfold nextElement at h
  split at h
  · cases h
  · next c es hblanks =>
    obtain ⟨gap, hgap⟩ := eq_append_of_skipBlanks hblanks
    split at h
    · cases h
    · split at h
      · next hfirst =>
        cases h
        exact ⟨gap, Blanks.none, by rw [hgap, hfirst]; rfl⟩
      · next hfirst =>
        split at h
        · next hcomma =>
          split at h
          · cases h
          · cases h
          · cases h
            obtain ⟨ahead, hahead⟩ := exists_blanks es
            refine ⟨gap, ahead, ?_⟩
            rw [hgap, hcomma, eq_false_of_ne_true hfirst]
            exact congrArg (fun es => gap.1 ++ ',' :: es) hahead
        · cases h

/-! ## Records that are read -/

namespace Shape

variable {shape : Shape σ}

theorem member_spells (h : ∀ field ∈ shape.fields, ∀ s, Spells (field.read s)) :
    SpellsMembers shape.member := by
  intro known name cs known' rest hread
  unfold member at hread
  split at hread
  · next field hfind =>
    split at hread
    · cases hread
    · split at hread
      · cases hread
      · next hcolon =>
        obtain ⟨behind, rfl⟩ := readColon_ok hcolon
        split at hread
        · cases hread
        · next hvalue =>
          cases hread
          obtain ⟨gap, v, rfl⟩ := h field (List.mem_of_find?_eq_some hfind) _ hvalue
          exact ⟨behind, gap, v, rfl⟩
  · split at hread
    · cases hread
    · next hcolon =>
      obtain ⟨behind, rfl⟩ := readColon_ok hcolon
      split at hread
      · cases hread
      · next hvalue =>
        cases hread
        obtain ⟨gap, v, rfl⟩ := skipValue_ok hvalue
        exact ⟨behind, gap, v, rfl⟩

/-- Elements that are read are of a list, up to its closing bracket. -/
theorem positions_ok {fields : List (Member σ)} (h : ∀ field ∈ fields, ∀ s, Spells (field.read s))
    {index : Nat} {s s' : σ} (hread : shape.positions index fields s cs = .ok (s', rest)) :
    ∃ items : Items .list, cs = items.text (index == 0) ++ rest := by
  have hclosed {index : Nat} {cs : List Char} (h : ∃ gap : Blanks, cs = gap.1 ++ ']' :: rest) :
      ∃ items : Items .list, cs = items.text (index == 0) ++ rest := by
    obtain ⟨gap, rfl⟩ := h
    exact ⟨.close gap, by simp [Items.text, Bracket.closing]⟩
  induction fields generalizing index s cs with
  | nil =>
    rw [positions] at hread
    cases hend : endList cs with
    | error fault =>
      rw [hend] at hread
      cases hread
    | ok ds =>
      rw [hend] at hread
      cases hread
      exact hclosed (endList_ok hend)
  | cons field fields ih =>
    obtain ⟨hfield, hfields⟩ := List.forall_mem_cons.mp h
    rw [positions] at hread
    split at hread
    · cases hread
    · next hnext =>
      obtain ⟨gap, ds, rfl, rfl⟩ := nextElement_close_ok hnext
      split at hread
      · cases hread
      · cases hread
        exact hclosed ⟨gap, rfl⟩
    · next ds _ hnext =>
      obtain ⟨gap, ahead, rfl⟩ := nextElement_item_ok hnext
      split at hread
      · cases hread
      · next hvalue =>
        obtain ⟨vgap, v, rfl⟩ := hfield _ hvalue
        obtain ⟨others, rfl⟩ : ∃ others : Items .list, _ = others.text false ++ rest :=
          ih hfields hread
        exact ⟨.item gap (.element (ahead.append vgap)) v others, by
          simp only [Items.text, Key.text, Blanks.append, List.append_assoc]⟩

/-- **What is read of a record is a value**, if that is so of its fields. -/
theorem read_spells (h : ∀ field ∈ shape.fields, ∀ s, Spells (field.read s)) (start : σ) :
    Spells (shape.read start) := by
  intro cs value rest hread
  unfold read at hread
  split at hread
  · cases hread
  · next ds hblanks =>
    obtain ⟨gap, hgap⟩ := eq_append_of_skipBlanks hblanks
    split at hread
    · obtain ⟨items, rfl⟩ := positions_ok h hread
      exact ⟨gap, .bracketed .list items, hgap⟩
    · cases hread
  · next ds hblanks =>
    obtain ⟨gap, hgap⟩ := eq_append_of_skipBlanks hblanks
    split at hread
    · cases hread
    · next hmembers =>
      obtain ⟨items, rfl⟩ := membersFrom_ok (member_spells h) (Nat.lt_succ_self _) hmembers
      split at hread
      · cases hread
      · cases hread
        exact ⟨gap, .bracketed .object items, hgap⟩
  · cases hread

end Shape

/-! ## Whole texts -/

/-- A text that holds one value and nothing else. -/
def Holds (text : String) (v : Value) : Prop :=
  ∃ ahead behind : Blanks, text.toList = ahead.1 ++ (v.text ++ behind.1)

theorem delimits_blanks (gap : Blanks) : Delimits gap.1 := by
  intro c hc
  have hblank := gap.2 c (List.mem_of_mem_head? hc)
  simp [isDelimiter, hblank]

variable {read : Decoder α} {meaning : Value → Option α} {text : String} {v : Value}

/-- **A text that holds a value is decoded to what the value means**, or not at all if that is
nothing. -/
theorem decode_holds (hmeans : Means read meaning) (h : Holds text v) :
    ∃ fault, decode read text = orFault (meaning v) fault := by
  obtain ⟨ahead, behind, htext⟩ := h
  obtain ⟨fault, hmeaning⟩ := hmeans ahead v
  refine ⟨fault.behind behind.1, ?_⟩
  unfold decode
  rw [htext, ← List.append_assoc, hmeaning _ (delimits_blanks behind)]
  cases meaning v with
  | none => rfl
  | some value => simp only [orFault, leaving, skipBlanks_blanks]

/-- A text that is decoded holds a value. -/
theorem holds_of_decode (hspells : Spells read) {value : α} (h : decode read text = .ok value) :
    ∃ v, Holds text v := by
  unfold decode at h
  split at h
  · cases h
  · next found rest hread =>
    split at h
    · next hrest =>
      obtain ⟨ahead, v, htext⟩ := hspells hread
      obtain ⟨behind, hbehind⟩ := eq_append_of_skipBlanks hrest
      rw [hbehind, List.append_nil] at htext
      exact ⟨v, ahead, behind, htext⟩
    · cases h

/-- **A text is decoded exactly if it holds a value that means something.** -/
theorem decode_ok_iff (hmeans : Means read meaning) (hspells : Spells read) {value : α} :
    decode read text = .ok value ↔ ∃ v, Holds text v ∧ meaning v = some value := by
  constructor
  · intro h
    obtain ⟨v, hv⟩ := holds_of_decode hspells h
    obtain ⟨fault, hdecode⟩ := decode_holds hmeans hv
    rw [hdecode] at h
    cases hmeaning : meaning v with
    | none =>
      rw [hmeaning] at h
      cases h
    | some other =>
      rw [hmeaning] at h
      cases h
      exact ⟨v, hv, hmeaning⟩
  · rintro ⟨v, hv, hmeaning⟩
    obtain ⟨fault, hdecode⟩ := decode_holds hmeans hv
    rw [hdecode, hmeaning]
    rfl

/-! ## Bytes -/

theorem decodeBytes_ok_iff {bytes : List UInt8} {value : α} :
    decodeBytes read bytes = .ok value ↔ decode read (markedText bytes) = .ok value := by
  unfold decodeBytes
  refine ⟨mapError_eq_ok, fun h => ?_⟩
  rw [h]
  rfl

end CredentialRelay.Json
