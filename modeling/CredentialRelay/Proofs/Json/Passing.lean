import CredentialRelay.Proofs.Json.Values

/-!
# What is passed over is of the grammar

A reader that passes over a value and succeeds has passed over blanks and one value of the grammar.

It goes by a stack of open brackets. What the stack still asks of the text is that its brackets are
closed one after another, each behind its remaining items.

* `SkipState.Begun state before`: what was passed over since the last piece of a string.
* `Closes stack rest cs`: the text closes the brackets of a stack, down to its rest.
* `SkipStep.Spells rest cs step stack`: what a step asks of the text, down to its rest.
* `SkipsSpelled fuel`: with so many steps left, what is passed over is what is asked for.

Results:
* `skipString_ok`, `skipNumber_ok`, `skipScalar_ok`: what is passed over without brackets.
* `skipFrom_ok`: what is passed over is what the step asks for.
* `skipValue_ok`: so it is one value, behind blanks.
-/

namespace CredentialRelay.Json

variable {cs rest : List Char}

/-! ## Blanks and names -/

/-- What is before the text behind the blanks are blanks. -/
theorem exists_blanks (cs : List Char) : ∃ gap : Blanks, cs = gap.1 ++ skipBlanks cs := by
  refine ⟨⟨cs.takeWhile isBlank, fun c hc => ?_⟩, (List.takeWhile_append_dropWhile).symm⟩
  exact List.all_eq_true.mp (List.all_takeWhile) c hc

theorem readName_ok {name : List Char} (h : readName name cs = .ok rest) : cs = name ++ rest := by
  induction name generalizing cs with
  | nil =>
    cases h
    rfl
  | cons n name ih =>
    cases cs with
    | nil => cases h
    | cons c cs =>
      rw [readName] at h
      split at h
      · next hc =>
        rw [hc, ih h]
        rfl
      · cases h

/-! ## Strings -/

/-- The characters since the last piece of a string. -/
inductive SkipState.Begun : SkipState → List Char → Prop where
  | plain : Begun .plain []
  | escape : Begun .escape ['\\']
  | hex (start : List Char) (digits : List HexDigit) (h : digits.length < 4) :
    Begun (.hex start digits.length) ('\\' :: 'u' :: digits.map Subtype.val)

/-- A piece of a string in front of others. -/
theorem exists_glyphs_cons (g : Glyph) (h : ∃ glyphs, cs = stringText glyphs ++ rest) :
    ∃ glyphs, g.text ++ cs = stringText glyphs ++ rest := by
  obtain ⟨glyphs, rfl⟩ := h
  exact ⟨g :: glyphs, by rw [stringText_cons, List.append_assoc]⟩

/-- What is passed over is the rest of a string. -/
theorem skipStringFrom_ok {state : SkipState} {before : List Char} (hbegun : state.Begun before)
    (h : skipStringFrom state cs = .ok rest) :
    ∃ glyphs, before ++ cs = stringText glyphs ++ rest := by
  induction cs generalizing state before with
  | nil => cases state <;> cases h
  | cons c cs ih =>
    cases hbegun with
    | plain =>
      rw [skipStringFrom] at h
      split at h
      · next hquote =>
        cases h
        exact ⟨[], by rw [hquote]; rfl⟩
      · next hquote =>
        split at h
        · next hbackslash =>
          rw [hbackslash]
          exact ih .escape h
        · next hbackslash =>
          split at h
          · cases h
          · next hcontrol =>
            exact exists_glyphs_cons (.plain c ⟨hquote, hbackslash, hcontrol⟩) (ih .plain h)
    | escape =>
      rw [skipStringFrom] at h
      split at h
      · next hescape => exact exists_glyphs_cons (.escape c hescape) (ih .plain h)
      · split at h
        · next hu =>
          rw [hu]
          exact ih (.hex cs [] (by decide)) h
        · cases h
    | hex start digits hfour =>
      rw [skipStringFrom] at h
      split at h
      · next hdigit =>
        rcases digits with _ | ⟨a, _ | ⟨b, _ | ⟨d, _ | ⟨e, digits⟩⟩⟩⟩
        · exact ih (.hex start [⟨c, hdigit⟩] (by simp)) h
        · exact ih (.hex start [a, ⟨c, hdigit⟩] (by simp)) h
        · exact ih (.hex start [a, b, ⟨c, hdigit⟩] (by simp)) h
        · exact exists_glyphs_cons (.code a b d ⟨c, hdigit⟩) (ih .plain h)
        · simp only [List.length_cons] at hfour
          omega
      · cases h

theorem skipString_ok (h : skipString cs = .ok rest) : ∃ glyphs, cs = stringText glyphs ++ rest :=
  skipStringFrom_ok .plain h

/-! ## Numbers -/

/-- The digits at the start of a text, if it begins with one. -/
def leadingDigits (c : Char) (cs : List Char) (h : c.isDigit = true) : Digits :=
  ⟨c :: cs.takeWhile Char.isDigit, List.cons_ne_nil _ _, List.forall_mem_cons.mpr
    ⟨h, fun _ hd => List.all_eq_true.mp List.all_takeWhile _ hd⟩⟩

theorem leadingDigits_append {c : Char} (h : c.isDigit = true) (cs : List Char) :
    c :: cs = (leadingDigits c cs h).1 ++ cs.dropWhile Char.isDigit :=
  congrArg (c :: ·) (List.takeWhile_append_dropWhile).symm

/-- What stands behind the sign of an exponent. -/
def behindSign : List Char → List Char
  | '+' :: rest => rest
  | '-' :: rest => rest
  | rest => rest

/-- Passes over the digits of an exponent. -/
def skipExponentDigits : List Char → Except Fault (List Char)
  | [] => .error (Cause.invalidNumber.here [])
  | c :: rest =>
    if c.isDigit then .ok (rest.dropWhile Char.isDigit)
    else .error (Cause.invalidNumber.next (c :: rest))

theorem skipExponent_eq (cs : List Char) :
    skipExponent cs = skipExponentDigits (behindSign cs) :=
  rfl

theorem behindSign_eq (hplus : ∀ ds, cs ≠ '+' :: ds) (hminus : ∀ ds, cs ≠ '-' :: ds) :
    behindSign cs = cs := by
  unfold behindSign
  split
  · exact absurd rfl (hplus _)
  · exact absurd rfl (hminus _)
  · rfl

theorem exists_sign (cs : List Char) : ∃ sign, cs = signText sign ++ behindSign cs := by
  unfold behindSign
  split
  · exact ⟨some false, rfl⟩
  · exact ⟨some true, rfl⟩
  · exact ⟨none, rfl⟩

theorem skipExponentDigits_ok (h : skipExponentDigits cs = .ok rest) :
    ∃ digits : Digits, cs = digits.1 ++ rest := by
  cases cs with
  | nil => cases h
  | cons c ds =>
    rw [skipExponentDigits] at h
    split at h
    · next hc =>
      cases h
      exact ⟨_, leadingDigits_append hc ds⟩
    · cases h

/-- What is passed over behind the `e` of a number are a sign and digits. -/
theorem skipExponent_ok (h : skipExponent cs = .ok rest) :
    ∃ (sign : Option Bool) (digits : Digits), cs = signText sign ++ (digits.1 ++ rest) := by
  rw [skipExponent_eq] at h
  obtain ⟨sign, hsign⟩ := exists_sign cs
  obtain ⟨digits, hdigits⟩ := skipExponentDigits_ok h
  exact ⟨sign, digits, hsign.trans (congrArg (signText sign ++ ·) hdigits)⟩

/-- What is passed over behind a number is an exponent or nothing. -/
theorem exponent_ok (h : (match cs with
      | 'e' :: rest => skipExponent rest
      | 'E' :: rest => skipExponent rest
      | rest => .ok rest) = .ok rest) :
    ∃ exponent : Option Exponent, cs = exponentText exponent ++ rest := by
  split at h
  · obtain ⟨sign, digits, rfl⟩ := skipExponent_ok h
    exact ⟨some ⟨false, sign, digits⟩, by simp [exponentText, Exponent.text]⟩
  · obtain ⟨sign, digits, rfl⟩ := skipExponent_ok h
    exact ⟨some ⟨true, sign, digits⟩, by simp [exponentText, Exponent.text]⟩
  · cases h
    exact ⟨none, rfl⟩

theorem skipNumberTail_ok (h : skipNumberTail cs = .ok rest) :
    ∃ (fraction : Option Digits) (exponent : Option Exponent),
      cs = fractionText fraction ++ (exponentText exponent ++ rest) := by
  unfold skipNumberTail at h
  split at h
  · next ds =>
    simp only at h
    split at h
    · cases h
    · next hdigits =>
      obtain ⟨exponent, hexponent⟩ := exponent_ok h
      refine ⟨some ⟨ds.takeWhile Char.isDigit, fun hnil => hdigits (by rw [hnil]; rfl),
        fun c hc => List.all_eq_true.mp List.all_takeWhile c hc⟩, exponent, ?_⟩
      rw [← hexponent, fractionText, List.cons_append, List.takeWhile_append_dropWhile]
  · obtain ⟨sign, digits, rfl⟩ := skipExponent_ok h
    exact ⟨none, some ⟨false, sign, digits⟩, by simp [fractionText, exponentText, Exponent.text]⟩
  · obtain ⟨sign, digits, rfl⟩ := skipExponent_ok h
    exact ⟨none, some ⟨true, sign, digits⟩, by simp [fractionText, exponentText, Exponent.text]⟩
  · cases h
    exact ⟨none, none, rfl⟩

/-- What is passed over behind the sign of a number is a number. -/
theorem skipNumber_ok (negative : Bool) (h : skipNumber cs = .ok rest) :
    ∃ n : Numeral, n.negative = negative ∧ cs = n.magnitude ++ rest := by
  -- A zero stands alone before the point, and other digits do not begin with one.
  have hnumber (digits : Digits) (hcanonical : digits.1.head? = some '0' → digits.1 = ['0'])
      (behind : List Char) (htail : skipNumberTail behind = .ok rest) :
      ∃ n : Numeral, n.negative = negative ∧ digits.1 ++ behind = n.magnitude ++ rest := by
    obtain ⟨fraction, exponent, rfl⟩ := skipNumberTail_ok htail
    exact ⟨⟨negative, digits, hcanonical, fraction, exponent⟩, rfl, by
      simp only [Numeral.magnitude, Numeral.tail, List.append_assoc]⟩
  cases cs with
  | nil => cases h
  | cons c ds =>
    simp only [skipNumber] at h
    split at h
    · next hzero =>
      have hzeros := hnumber ⟨['0'], by simp, by simp⟩ (fun _ => rfl) ds
      subst hzero
      cases ds with
      | nil => exact hzeros h
      | cons d ds =>
        simp only at h
        split at h
        · cases h
        · exact hzeros h
    · next hzero =>
      split at h
      · next hdigit =>
        have hothers := hnumber (leadingDigits c ds hdigit)
          (fun hhead => absurd (Option.some.inj hhead) hzero) _ h
        rwa [← leadingDigits_append] at hothers
      · cases h

/-! ## Scalars -/

/-- **What is passed over without brackets** is a scalar. -/
theorem skipScalar_ok (h : skipScalar cs = .ok rest) : ∃ s : Scalar, cs = s.text ++ rest := by
  unfold skipScalar at h
  split at h
  · exact ⟨.null, congrArg ('n' :: ·) (readName_ok h)⟩
  · exact ⟨.boolean true, congrArg ('t' :: ·) (readName_ok h)⟩
  · exact ⟨.boolean false, congrArg ('f' :: ·) (readName_ok h)⟩
  · obtain ⟨n, hnegative, rfl⟩ := skipNumber_ok true h
    exact ⟨.number n, by simp [Scalar.text, Numeral.text, hnegative]⟩
  · obtain ⟨glyphs, rfl⟩ := skipString_ok h
    exact ⟨.string glyphs, rfl⟩
  · cases h
  · split at h
    · obtain ⟨n, hnegative, hn⟩ := skipNumber_ok false h
      exact ⟨.number n, by simp [hn, Scalar.text, Numeral.text, hnegative]⟩
    · cases h

/-! ## Passing over -/

/-- A text behind blanks, by what it begins with. -/
theorem eq_append_of_skipBlanks {ds : List Char} (h : skipBlanks cs = ds) :
    ∃ gap : Blanks, cs = gap.1 ++ ds := by
  obtain ⟨gap, hgap⟩ := exists_blanks cs
  exact ⟨gap, h ▸ hgap⟩

theorem readColon_ok (h : readColon cs = .ok rest) :
    ∃ behind : Blanks, cs = behind.1 ++ ':' :: rest := by
  unfold readColon at h
  split at h
  · next hblanks =>
    cases h
    exact eq_append_of_skipBlanks hblanks
  · cases h
  · cases h

/-- What is passed over before the value of an item is its key, up to the blanks behind it. -/
theorem skipKey_ok {b : Bracket} {after : List Char} {gap : Blanks}
    (h : skipKey b cs = .ok (gap.1 ++ after)) : ∃ key : Key b, cs = key.text ++ after := by
  cases b with
  | list =>
    cases h
    exact ⟨.element gap, rfl⟩
  | object =>
    unfold skipKey at h
    simp only at h
    split at h
    · next ds hblanks =>
      obtain ⟨ahead, rfl⟩ := eq_append_of_skipBlanks hblanks
      cases hname : skipString ds with
      | error fault =>
        rw [hname] at h
        cases h
      | ok behindName =>
        rw [hname] at h
        obtain ⟨name, rfl⟩ := skipString_ok hname
        obtain ⟨behind, rfl⟩ := readColon_ok h
        exact ⟨.member ahead name behind gap, by
          simp only [Key.text, List.append_assoc, List.cons_append]⟩
    · cases h
    · cases h

/-- A key has no more characters than the text that it was passed over in. -/
theorem skipKey_length {b : Bracket} (h : skipKey b cs = .ok rest) : rest.length ≤ cs.length := by
  obtain ⟨key, rfl⟩ := skipKey_ok (show skipKey b cs = .ok (Blanks.none.1 ++ rest) from h)
  rw [List.length_append]
  omega

/-- A text that closes the brackets of a stack one after another, each behind its remaining items,
down to its rest. -/
def Closes : List Bracket → (rest cs : List Char) → Prop
  | [], rest, cs => cs = rest
  | b :: stack, rest, cs => ∃ (items : Items b) (after : List Char),
    cs = items.text false ++ after ∧ Closes stack rest after

/-- What a step of passing over asks of the text, down to its rest. -/
def SkipStep.Spells (rest cs : List Char) : SkipStep → List Bracket → Prop
  | .value, stack => ∃ (gap : Blanks) (v : Value) (after : List Char),
    cs = gap.1 ++ (v.text ++ after) ∧ Closes stack rest after
  | .first, b :: stack => ∃ (items : Items b) (after : List Char),
    cs = items.text true ++ after ∧ Closes stack rest after
  | .first, [] => cs = rest
  | .more, stack => Closes stack rest cs

/-- How many steps a text may need. -/
def SkipStep.steps (length : Nat) : SkipStep → Nat
  | .value => 2 * length + 1
  | .first => 2 * length + 2
  | .more => 2 * length + 1

theorem Bracket.eq_closing {b : Bracket} {c : Char} (h : b.closedBy c = true) : c = b.closing := by
  cases b <;> exact eq_of_beq h

/-- An item behind its key, with the items that remain. -/
theorem exists_items_cons {b : Bracket} {stack : List Bracket} {before ds : List Char}
    (gap : Blanks) (first : Bool) (hkey : skipKey b before = .ok ds)
    (h : SkipStep.Spells rest ds .value (b :: stack)) :
    ∃ (items : Items b) (after : List Char),
      gap.1 ++ (separator first ++ before) = items.text first ++ after ∧
        Closes stack rest after := by
  obtain ⟨vgap, v, behind, rfl, others, after, rfl, hcloses⟩ := h
  obtain ⟨key, rfl⟩ := skipKey_ok hkey
  exact ⟨.item gap key v others, after, by simp only [Items.text, List.append_assoc], hcloses⟩

/-- With so many steps left, what is passed over is what a step asks for. -/
def SkipsSpelled (fuel : Nat) : Prop :=
  ∀ ⦃step : SkipStep⦄ ⦃stack : List Bracket⦄ ⦃cs rest : List Char⦄,
    step.steps cs.length ≤ fuel → skipFrom fuel step stack cs = .ok rest →
      step.Spells rest cs stack

section

variable {fuel : Nat} {stack : List Bracket} {b : Bracket} {c : Char} {ds : List Char}

/-- What is behind blanks and a character is shorter. -/
theorem length_of_skipBlanks (h : skipBlanks cs = c :: ds) : ds.length < cs.length := by
  obtain ⟨gap, rfl⟩ := eq_append_of_skipBlanks h
  rw [List.length_append, List.length_cons]
  omega

/-- A value that begins with a bracket. -/
theorem spells_opening (hfuel : SkipsSpelled fuel)
    (hsteps : SkipStep.value.steps cs.length ≤ fuel + 1) (hblanks : skipBlanks cs = b.opening :: ds)
    (h : skipFrom fuel .first (b :: stack) ds = .ok rest) : SkipStep.Spells rest cs .value stack := by
  have hlength := length_of_skipBlanks hblanks
  simp only [SkipStep.steps] at hsteps
  obtain ⟨gap, rfl⟩ := eq_append_of_skipBlanks hblanks
  obtain ⟨items, after, rfl, hcloses⟩ := hfuel (by simp only [SkipStep.steps]; omega) h
  exact ⟨gap, .bracketed b items, after, rfl, hcloses⟩

/-- The closing bracket, whether items are before it or not. -/
theorem spells_closing (hfuel : SkipsSpelled fuel) (first : Bool)
    (hsteps : SkipStep.more.steps ds.length ≤ fuel) (hblanks : skipBlanks cs = c :: ds)
    (hclosed : b.closedBy c = true) (h : skipFrom fuel .more stack ds = .ok rest) :
    ∃ (items : Items b) (after : List Char), cs = items.text first ++ after ∧
      Closes stack rest after := by
  obtain ⟨gap, rfl⟩ := eq_append_of_skipBlanks hblanks
  refine ⟨.close gap, ds, ?_, hfuel hsteps h⟩
  rw [Bracket.eq_closing hclosed, Items.text, List.append_assoc]
  rfl

/-- An item, behind a comma if it is not the first. -/
theorem spells_item {before : List Char} (hfuel : SkipsSpelled fuel) (gap : Blanks) (first : Bool)
    (hsteps : SkipStep.value.steps before.length ≤ fuel)
    (h : (match skipKey b before with
      | .ok rest => skipFrom fuel .value (b :: stack) rest
      | .error fault => .error fault) = .ok rest) :
    ∃ (items : Items b) (after : List Char),
      gap.1 ++ (separator first ++ before) = items.text first ++ after ∧
        Closes stack rest after := by
  cases hkey : skipKey b before with
  | error fault =>
    rw [hkey] at h
    cases h
  | ok es =>
    rw [hkey] at h
    have hrest := skipKey_length hkey
    simp only [SkipStep.steps] at hsteps
    exact exists_items_cons gap first hkey (hfuel (by simp only [SkipStep.steps]; omega) h)

/-- A value: one with brackets by its opening one, and any other as a whole. -/
theorem spells_value (hfuel : SkipsSpelled fuel)
    (hsteps : SkipStep.value.steps cs.length ≤ fuel + 1)
    (h : skipFrom (fuel + 1) .value stack cs = .ok rest) :
    SkipStep.Spells rest cs .value stack := by
  rw [skipFrom] at h
  split at h
  · next hblanks => exact spells_opening (b := .list) hfuel hsteps hblanks h
  · next hblanks => exact spells_opening (b := .object) hfuel hsteps hblanks h
  · cases hscalar : skipScalar (skipBlanks cs) with
    | error fault =>
      rw [hscalar] at h
      cases h
    | ok es =>
      rw [hscalar] at h
      obtain ⟨gap, hgap⟩ := exists_blanks cs
      obtain ⟨s, hs⟩ := skipScalar_ok hscalar
      obtain ⟨d, fs, htext, -⟩ := (Value.scalar s).text_cons
      rw [show s.text = d :: fs from htext] at hs
      have hlength := length_of_skipBlanks (hs.trans List.cons_append)
      simp only [SkipStep.steps, List.length_append] at hsteps hlength
      rw [hs, ← show s.text = d :: fs from htext] at hgap
      exact ⟨gap, .scalar s, es, hgap, hfuel (by simp only [SkipStep.steps]; omega) h⟩

/-- What follows an opening bracket. -/
theorem spells_first (hfuel : SkipsSpelled fuel)
    (hsteps : SkipStep.first.steps cs.length ≤ fuel + 1)
    (h : skipFrom (fuel + 1) .first (b :: stack) cs = .ok rest) :
    SkipStep.Spells rest cs .first (b :: stack) := by
  simp only [SkipStep.steps] at hsteps
  rw [skipFrom] at h
  split at h
  · cases h
  · next c ds hblanks =>
    have hlength := length_of_skipBlanks hblanks
    split at h
    · next hclosed =>
      exact spells_closing hfuel true (by simp only [SkipStep.steps]; omega) hblanks hclosed h
    · obtain ⟨gap, rfl⟩ := eq_append_of_skipBlanks hblanks
      rw [List.length_append, List.length_cons] at hsteps
      exact spells_item hfuel gap true
        (by simp only [SkipStep.steps, List.length_cons]; omega) h

/-- What follows an item. -/
theorem spells_more (hfuel : SkipsSpelled fuel)
    (hsteps : SkipStep.more.steps cs.length ≤ fuel + 1)
    (h : skipFrom (fuel + 1) .more (b :: stack) cs = .ok rest) :
    SkipStep.Spells rest cs .more (b :: stack) := by
  simp only [SkipStep.steps] at hsteps
  rw [skipFrom] at h
  split at h
  · cases h
  · next c ds hblanks =>
    have hlength := length_of_skipBlanks hblanks
    split at h
    · next hcomma =>
      obtain ⟨gap, rfl⟩ := eq_append_of_skipBlanks hblanks
      rw [hcomma]
      exact spells_item hfuel gap false (by simp only [SkipStep.steps]; omega) h
    · split at h
      · next hclosed =>
        exact spells_closing hfuel false (by simp only [SkipStep.steps]; omega) hblanks hclosed h
      · cases h

/-- **What is passed over is what the step asks for**, if there are steps enough. -/
theorem skipFrom_ok : ∀ fuel, SkipsSpelled fuel
  | 0 => fun step _ _ _ hsteps _ => by cases step <;> simp [SkipStep.steps] at hsteps
  | fuel + 1 => fun step stack _ _ hsteps h => by
    match step, stack with
    | .value, _ => exact spells_value (skipFrom_ok fuel) hsteps h
    | .first, _ :: _ => exact spells_first (skipFrom_ok fuel) hsteps h
    | .more, _ :: _ => exact spells_more (skipFrom_ok fuel) hsteps h
    | .first, [] =>
      cases h
      rfl
    | .more, [] =>
      cases h
      rfl

end

/-- **What is passed over is a value**, behind blanks. -/
theorem skipValue_ok (h : skipValue cs = .ok rest) :
    ∃ (gap : Blanks) (v : Value), cs = gap.1 ++ (v.text ++ rest) := by
  obtain ⟨gap, v, after, hcs, rfl⟩ := skipFrom_ok _ (by simp only [SkipStep.steps]; omega) h
  exact ⟨gap, v, hcs⟩

end CredentialRelay.Json
