import CredentialRelay.Proofs.Json.Values

/-!
# Texts that differ in one literal

Two texts of the grammar that differ in one literal, which is of the same sort and as long in both,
are read in step. A value is found in both or in none, and a fault lies at the same place for the
same cause, unless the literal itself is refused: then the fault names what was found.

* `Interchangeable a b`: two numbers, or two strings that say something, of one length.
* `Twins R P x y`: two outcomes with values related by `R`, or with faults of the same message, or,
  if `P`, with faults that quote the two literals.

Results:
* `Fault.message_eq`: faults that are alike have the same message.
* `membersFrom_fill`: members of which one has a hole in its value are read in step.
* `text_fill`, `dictionary_fill`, `Shape.read_fill`: so are the values that credentials consist of.
-/

namespace CredentialRelay.Json

/-! ## Lengths -/

theorem foldl_utf8Size (cs : List Char) (n : Nat) :
    cs.foldl (fun n c => n + c.utf8Size) n = n + byteCount cs := by
  induction cs generalizing n with
  | nil => rfl
  | cons c cs ih => rw [byteCount, List.foldl_cons, List.foldl_cons, ih, ih, Nat.zero_add,
      Nat.add_assoc]

theorem byteCount_cons (c : Char) (cs : List Char) :
    byteCount (c :: cs) = c.utf8Size + byteCount cs := by
  rw [byteCount, List.foldl_cons, foldl_utf8Size, Nat.zero_add]

theorem byteCount_append (cs ds : List Char) :
    byteCount (cs ++ ds) = byteCount cs + byteCount ds := by
  rw [byteCount, List.foldl_append, foldl_utf8Size, ← byteCount]

/-- Two literals of one length, both numbers, or both strings that say something. -/
inductive Interchangeable : Scalar → Scalar → Prop where
  | numbers {m n : Numeral} (h : byteCount m.text = byteCount n.text) :
      Interchangeable (.number m) (.number n)
  | strings {l m : List Glyph} {s t : String} (hs : spelled? l = some s) (ht : spelled? m = some t)
      (h : byteCount (stringText l) = byteCount (stringText m)) :
      Interchangeable (.string l) (.string m)

variable {a b : Scalar}

theorem Interchangeable.byteCount_eq (h : Interchangeable a b) :
    byteCount a.text = byteCount b.text := by
  cases h with
  | numbers h => exact h
  | strings _ _ h => simp only [Scalar.text, byteCount_cons, h]

mutual

/-- The text around a hole. -/
theorem Context.exists_text (c : Context) :
    ∃ p q, ∀ v, (c.fill v).text = p ++ (v.text ++ q) := by
  match c with
  | .hole => exact ⟨[], [], fun v => by simp [Context.fill]⟩
  | .within b items =>
    obtain ⟨p, q, h⟩ := items.exists_text true
    exact ⟨b.opening :: p, q, fun v => by simp [Context.fill, Value.text, h]⟩

theorem ItemsContext.exists_text {b : Bracket} (c : ItemsContext b) (first : Bool) :
    ∃ p q, ∀ v, (c.fill v).text first = p ++ (v.text ++ q) := by
  match c with
  | .here gap key value others =>
    obtain ⟨p, q, h⟩ := value.exists_text
    exact ⟨gap.1 ++ (separator first ++ (key.text ++ p)), q ++ others.text false,
      fun v => by simp [ItemsContext.fill, Items.text, h]⟩
  | .later gap key value others =>
    obtain ⟨p, q, h⟩ := others.exists_text false
    exact ⟨gap.1 ++ (separator first ++ (key.text ++ (value.text ++ p))), q,
      fun v => by simp [ItemsContext.fill, Items.text, h]⟩

end

theorem Slot.exists_text (slot : Slot) :
    ∃ p q, ∀ s : Scalar, (slot.fill (.scalar s)).toList = p ++ (s.text ++ q) := by
  obtain ⟨p, q, h⟩ := slot.members.exists_text true
  exact ⟨slot.ahead.1 ++ Bracket.object.opening :: p, q ++ slot.behind.1, fun s => by
    simp [Slot.fill, Slot.text, Value.text, h]⟩

theorem Context.byteCount_fill (h : Interchangeable a b) (c : Context) :
    byteCount (c.fill (.scalar a)).text = byteCount (c.fill (.scalar b)).text := by
  obtain ⟨p, q, htext⟩ := c.exists_text
  simp only [htext, byteCount_append, Value.text, h.byteCount_eq]

theorem ItemsContext.byteCount_fill (h : Interchangeable a b) {k : Bracket} (c : ItemsContext k)
    (first : Bool) : byteCount ((c.fill (.scalar a)).text first) =
      byteCount ((c.fill (.scalar b)).text first) := by
  obtain ⟨p, q, htext⟩ := c.exists_text first
  simp only [htext, byteCount_append, Value.text, h.byteCount_eq]

/-! ## Places -/

/-- Where a place lies that is counted over a text in one line. -/
theorem positionFrom_line {cs : List Char} (h : '\n' ∉ cs) (here : Position) (offset : Nat)
    (q : List Char) :
    positionFrom here offset (cs ++ q) =
      if offset < byteCount cs then ⟨here.line, here.column + offset⟩
      else positionFrom ⟨here.line, here.column + byteCount cs⟩ (offset - byteCount cs) q := by
  induction cs generalizing here offset with
  | nil => simp [byteCount]
  | cons c cs ih =>
    obtain ⟨hc, hcs⟩ := List.ne_and_not_mem_of_not_mem_cons h
    rw [List.cons_append, positionFrom, byteCount_cons, if_neg (Ne.symm hc)]
    by_cases hin : offset < c.utf8Size
    · rw [if_pos hin, if_pos (Nat.lt_add_right _ hin)]
    · rw [if_neg hin, ih hcs]
      have hsub : offset - c.utf8Size < byteCount cs ↔ offset < c.utf8Size + byteCount cs := by
        omega
      simp only [hsub, Nat.add_assoc, Nat.sub_sub]
      split
      · next hlt => rw [Nat.add_sub_cancel' (Nat.le_of_not_lt hin)]
      · rfl

/-- A place lies the same in texts that differ within a line, in as many bytes. -/
theorem positionFrom_congr {cs ds : List Char} (hcs : '\n' ∉ cs) (hds : '\n' ∉ ds)
    (h : byteCount cs = byteCount ds) (q p : List Char) (here : Position) (offset : Nat) :
    positionFrom here offset (p ++ (cs ++ q)) = positionFrom here offset (p ++ (ds ++ q)) := by
  induction p generalizing here offset with
  | nil => simp only [List.nil_append, positionFrom_line hcs, positionFrom_line hds, h]
  | cons c p ih => simp only [List.cons_append, positionFrom, ih]

/-- Faults for the same cause, as many bytes before the end. -/
structure Fault.Alike (f g : Fault) : Prop where
  cause : f.cause = g.cause
  ahead : f.ahead = g.ahead
  rest : byteCount f.rest = byteCount g.rest

theorem Fault.Alike.rfl {f : Fault} : f.Alike f :=
  ⟨.refl _, .refl _, .refl _⟩

/-- Faults within texts of one length stay alike whatever is behind. -/
theorem Fault.Alike.behind (f : Fault) {cs ds : List Char} (h : byteCount cs = byteCount ds) :
    (f.behind cs).Alike (f.behind ds) :=
  ⟨.refl _, .refl _, by simp only [Fault.behind, byteCount_append, h]⟩

/-! ## Lines -/

/-- A table without an entry for the line feed does not list it. -/
theorem ne_newline_of_isSome {α : Type} {f : Char → Option α} (hnone : f '\n' = none) {c : Char}
    (h : (f c).isSome = true) : '\n' ≠ c := by
  rintro rfl
  rw [hnone] at h
  cases h

theorem Glyph.newline_not_mem (g : Glyph) : '\n' ∉ g.text := by
  cases g with
  | plain c h =>
    rw [Glyph.text, List.mem_singleton]
    rintro rfl
    exact h.2.2 (by decide)
  | escape c h => simpa [Glyph.text] using ne_newline_of_isSome (by decide) h
  | code a b c d =>
    have hdigit (d : HexDigit) : '\n' ≠ d.1 := ne_newline_of_isSome (by decide) d.2
    simp [Glyph.text, hdigit]

theorem newline_not_mem_stringText (glyphs : List Glyph) : '\n' ∉ stringText glyphs := by
  induction glyphs with
  | nil => decide
  | cons g glyphs ih =>
    rw [stringText_cons, List.mem_append]
    exact not_or.mpr ⟨g.newline_not_mem, ih⟩

theorem Digits.newline_not_mem (digits : Digits) : '\n' ∉ digits.1 :=
  fun h => nomatch digits.2.2 _ h

theorem newline_not_mem_fractionText (fraction : Option Digits) :
    '\n' ∉ fractionText fraction := by
  cases fraction with
  | none => exact List.not_mem_nil
  | some digits => simpa [fractionText] using digits.newline_not_mem

theorem newline_not_mem_exponentText (exponent : Option Exponent) :
    '\n' ∉ exponentText exponent := by
  cases exponent with
  | none => exact List.not_mem_nil
  | some e =>
    have hsign : '\n' ∉ signText e.sign := by
      cases e.sign with
      | none => exact List.not_mem_nil
      | some minus => cases minus <;> decide
    have hletter : '\n' ≠ if e.capital then 'E' else 'e' := by
      cases e.capital <;> decide
    simp only [exponentText, Exponent.text, List.mem_cons, List.mem_append]
    exact not_or.mpr ⟨hletter, not_or.mpr ⟨hsign, e.digits.newline_not_mem⟩⟩

theorem Numeral.newline_not_mem (n : Numeral) : '\n' ∉ n.text := by
  have hsign : '\n' ∉ if n.negative then ['-'] else [] := by
    cases n.negative <;> decide
  simp only [Numeral.text, Numeral.magnitude, Numeral.tail, List.mem_append, not_or]
  exact ⟨hsign, n.whole.newline_not_mem, newline_not_mem_fractionText n.fraction,
    newline_not_mem_exponentText n.exponent⟩

/-- No line ends within a scalar. -/
theorem Scalar.newline_not_mem (s : Scalar) : '\n' ∉ s.text := by
  match s with
  | .null => decide
  | .boolean true => decide
  | .boolean false => decide
  | .number n => exact n.newline_not_mem
  | .string glyphs =>
    rw [Scalar.text, List.mem_cons]
    exact not_or.mpr ⟨by decide, newline_not_mem_stringText glyphs⟩

/-- **Faults that are alike have the same message** in texts that differ in one literal. -/
theorem Fault.message_eq (hab : Interchangeable a b) {f g : Fault} (h : f.Alike g)
    {p q : List Char} {s t : String} (hs : s.toList = p ++ (a.text ++ q))
    (ht : t.toList = p ++ (b.text ++ q)) : f.message s = g.message t := by
  have hcount : byteCount s.toList = byteCount t.toList := by
    simp only [hs, ht, byteCount_append, hab.byteCount_eq]
  have hposition : f.position s.toList = g.position t.toList := by
    simp only [Fault.position, positionAt, hcount, h.rest, h.ahead]
    rw [hs, ht]
    exact positionFrom_congr a.newline_not_mem b.newline_not_mem hab.byteCount_eq q p _ _
  rw [Fault.message, Fault.message, hposition, h.cause]

/-! ## Outcomes -/

variable {α β σ : Type}

/-- Outcomes of reading in step: related values with the same text behind, or faults that are alike.
If `P`, they may also be the faults that say what the two literals are. -/
inductive Twins (a b : Scalar) (P : Prop) (R : α → β → Prop) : Outcome α → Outcome β → Prop where
  | ok {x : α} {y : β} (h : R x y) (r : List Char) : Twins a b P R (.ok (x, r)) (.ok (y, r))
  | error {f g : Fault} (h : f.Alike g) : Twins a b P R (.error f) (.error g)
  | quoted (h : P) (expected : String) (r : List Char) :
      Twins a b P R (.error (mismatch expected (a.text ++ r)))
        (.error (mismatch expected (b.text ++ r)))

variable {P : Prop} {R : σ → σ → Prop}

/-- Outcomes in step stay so with their values changed. -/
theorem Twins.map {γ δ : Type} {R : α → β → Prop} {S : γ → δ → Prop} {f : α → γ} {g : β → δ}
    (hfg : ∀ x y, R x y → S (f x) (g y)) {x : Outcome α} {y : Outcome β} (h : Twins a b P R x y) :
    Twins a b P S (x.map fun (value, rest) => (f value, rest))
      (y.map fun (value, rest) => (g value, rest)) := by
  cases h with
  | ok h r => exact .ok (hfg _ _ h) r
  | error h => exact .error h
  | quoted h expected r => exact .quoted h expected r

theorem Twins.mono {Q : Prop} {R : α → β → Prop} {x : Outcome α} {y : Outcome β}
    (h : Twins a b P R x y) (hPQ : P → Q) : Twins a b Q R x y := by
  cases h with
  | ok h r => exact .ok h r
  | error h => exact .error h
  | quoted h expected r => exact .quoted (hPQ h) expected r

/-- Outcomes that are gone on from in step stay so. -/
theorem Twins.readOn {γ δ : Type} {R : α → β → Prop} {S : γ → δ → Prop} {x : Outcome α}
    {y : Outcome β} {next : α → Decoder γ} {next' : β → Decoder δ} (h : Twins a b P R x y)
    (hnext : ∀ s t r, R s t → x = .ok (s, r) → Twins a b P S (next s r) (next' t r)) :
    Twins a b P S (Json.readOn x next) (Json.readOn y next') := by
  cases h with
  | ok h r => exact hnext _ _ r h rfl
  | error h => exact .error h
  | quoted h expected r => exact .quoted h expected r

theorem rest_of_leaving {o : Except Fault α} {cs rest : List Char} {x : α}
    (h : leaving o cs = .ok (x, rest)) : rest = cs := by
  cases o with
  | error fault => cases h
  | ok value =>
    cases h
    rfl

/-! ## Members -/

/-- A reader of members that keeps values related. -/
def KeepsRelated (R : σ → σ → Prop) (member : σ → String → Decoder σ) : Prop :=
  ∀ a b P s t, R s t → ∀ key cs, Twins a b P R (member s key cs) (member t key cs)

/-- **Values that are related stay so** while the same members are read. -/
theorem membersFrom_twins {member : σ → String → Decoder σ} (hm : SettlesMembers member)
    (hR : KeepsRelated R member) (items : Items .object) (first : Bool) {s t : σ} (h : R s t)
    {m n : Nat} (hmcount : items.count < m) (hncount : items.count < n) (r : List Char) :
    Twins a b P R (membersFrom member m first s (items.text first ++ r))
      (membersFrom member n first t (items.text first ++ r)) := by
  match items, m, n with
  | .close gap, m + 1, n + 1 =>
    rw [membersFrom, membersFrom, nextKey_close]
    exact .ok h r
  | .item gap (.member ahead name behind vgap) v others, m + 1, n + 1 =>
    rw [Items.text_member]
    cases hname : spelled? name with
    | none =>
      obtain ⟨fault, hfault⟩ := membersFrom_unnamed (σ := σ) hname
      rw [hfault, hfault]
      exact .error .rfl
    | some key =>
      rw [membersFrom_named member gap ahead hname, membersFrom_named member gap ahead hname]
      obtain ⟨o, ho⟩ := hm.among s key behind vgap v
      refine (hR a b P s t h key _).readOn fun s' t' rest h' hs => ?_
      obtain rfl := rest_of_leaving ((ho others r).symm.trans hs)
      exact membersFrom_twins hm hR others false h' (Nat.lt_of_succ_lt_succ hmcount)
        (Nat.lt_of_succ_lt_succ hncount) r

/-- **Members are read in step** that differ in the value of one, if this value is. -/
theorem membersFrom_fill {member : σ → String → Decoder σ} (hab : Interchangeable a b)
    (hm : SettlesMembers member) (hR : KeepsRelated R member) (c : ItemsContext .object)
    (hhole : ∀ key, c.key.name? = some key → ∀ (s : σ) (behind gap : Blanks) (r : List Char),
      Delimits r → Twins a b P R
        (member s key (behind.1 ++ ':' :: (gap.1 ++ ((c.value.fill (.scalar a)).text ++ r))))
        (member s key (behind.1 ++ ':' :: (gap.1 ++ ((c.value.fill (.scalar b)).text ++ r)))))
    (first : Bool) (s : σ) {m n : Nat} (hmcount : (c.fill (.scalar a)).count < m)
    (hncount : (c.fill (.scalar b)).count < n) (r : List Char) :
    Twins a b P R (membersFrom member m first s ((c.fill (.scalar a)).text first ++ r))
      (membersFrom member n first s ((c.fill (.scalar b)).text first ++ r)) := by
  match c, m, n with
  | .here gap (.member ahead name behind vgap) value others, m + 1, n + 1 =>
    simp only [ItemsContext.fill, Items.text_member]
    cases hname : spelled? name with
    | none =>
      obtain ⟨fault, hfault⟩ := membersFrom_unnamed (σ := σ) hname
      rw [hfault, hfault]
      exact .error (.behind fault (by
        simp only [byteCount_append, byteCount_cons, value.byteCount_fill hab]))
    | some key =>
      rw [membersFrom_named member gap ahead hname, membersFrom_named member gap ahead hname]
      obtain ⟨o, ho⟩ := hm.among s key behind vgap (value.fill (.scalar a))
      refine (hhole key hname s behind vgap _ (others.delimits r)).readOn fun s' t' rest h' hs => ?_
      obtain rfl := rest_of_leaving ((ho others r).symm.trans hs)
      exact membersFrom_twins hm hR others false h' (Nat.lt_of_succ_lt_succ hmcount)
        (Nat.lt_of_succ_lt_succ hncount) r
  | .later gap (.member ahead name behind vgap) v others, m + 1, n + 1 =>
    simp only [ItemsContext.fill, Items.text_member]
    cases hname : spelled? name with
    | none =>
      obtain ⟨fault, hfault⟩ := membersFrom_unnamed (σ := σ) hname
      rw [hfault, hfault]
      exact .error (.behind fault (by
        simp only [byteCount_append, byteCount_cons, others.byteCount_fill hab]))
    | some key =>
      rw [membersFrom_named member gap ahead hname, membersFrom_named member gap ahead hname]
      obtain ⟨o, ho⟩ := hm.among s key behind vgap v
      rw [ho, ho]
      match o with
      | .error fault =>
        exact .error (.behind fault (by simp only [byteCount_append, others.byteCount_fill hab]))
      | .ok s' =>
        exact membersFrom_fill hab hm hR others hhole false s' (Nat.lt_of_succ_lt_succ hmcount)
          (Nat.lt_of_succ_lt_succ hncount) r

/-- Objects are read in step that differ in the value of one member, if this value is. -/
theorem members_fill {member : σ → String → Decoder σ} (hab : Interchangeable a b)
    (hm : SettlesMembers member) (hR : KeepsRelated R member) (c : ItemsContext .object)
    (hhole : ∀ key, c.key.name? = some key → ∀ (s : σ) (behind gap : Blanks) (r : List Char),
      Delimits r → Twins a b P R
        (member s key (behind.1 ++ ':' :: (gap.1 ++ ((c.value.fill (.scalar a)).text ++ r))))
        (member s key (behind.1 ++ ':' :: (gap.1 ++ ((c.value.fill (.scalar b)).text ++ r)))))
    (s : σ) (r : List Char) :
    Twins a b P R (members member s ((c.fill (.scalar a)).text true ++ r))
      (members member s ((c.fill (.scalar b)).text true ++ r)) :=
  have hfuel (items : Items .object) : items.count < (items.text true ++ r).length + 1 := by
    have := items.count_lt true
    rw [List.length_append]
    omega
  membersFrom_fill hab hm hR c hhole true s (hfuel _) (hfuel _) r

/-! ## Texts -/

theorem ne_nil_of_map_cons {o : Option (List Char)} {c : Char} {cs : List Char}
    (h : o.map (c :: ·) = some cs) : cs ≠ [] := by
  obtain ⟨rest, -, rfl⟩ := Option.map_eq_some_iff.mp h
  exact List.cons_ne_nil c rest

/-- Where there are pieces of a string, or half of a surrogate pair, something is said if
anything is. -/
theorem spelledFrom_ne_nil {high : Option Nat} {glyphs : List Glyph} {cs : List Char}
    (h : spelledFrom high glyphs = some cs) (hne : glyphs ≠ [] ∨ high ≠ none) : cs ≠ [] := by
  induction glyphs generalizing high with
  | nil =>
    cases high with
    | none => exact absurd rfl (hne.resolve_left (not_not_intro rfl))
    | some high => cases h
  | cons g glyphs ih =>
    cases g with
    | plain c hc =>
      cases high with
      | none => exact ne_nil_of_map_cons h
      | some high => cases h
    | escape c hc =>
      cases high with
      | none => exact ne_nil_of_map_cons h
      | some high => cases h
    | code a b c d =>
      rw [spelledFrom_code] at h
      split at h
      · exact ne_nil_of_map_cons h
      · exact ih h (.inr (Option.some_ne_none _))
      · cases h

/-- A string is empty exactly if nothing stands before its closing quote. -/
theorem isEmpty_iff_byteCount {glyphs : List Glyph} {s : String} (h : spelled? glyphs = some s) :
    s.isEmpty = true ↔ byteCount (stringText glyphs) = 1 := by
  obtain ⟨cs, hcs, rfl⟩ := Option.map_eq_some_iff.mp h
  cases glyphs with
  | nil =>
    cases hcs
    exact iff_of_true rfl rfl
  | cons g glyphs =>
    refine iff_of_false ?_ ?_
    · rw [String.isEmpty_iff, String.ofList_eq_empty_iff]
      exact spelledFrom_ne_nil hcs (.inl (List.cons_ne_nil g glyphs))
    · have hquote : 1 ≤ byteCount (stringText glyphs) := by
        rw [stringText, byteCount_append]
        exact Nat.le_add_left ..
      have hpiece : 1 ≤ byteCount g.text := by
        cases g <;> simp only [Glyph.text, byteCount_cons] <;>
          exact Nat.le_trans (Char.utf8Size_pos _) (Nat.le_add_right ..)
      rw [stringText_cons, byteCount_append]
      omega

/-- Strings of one length are both empty or both not. -/
theorem isEmpty_eq {l m : List Glyph} {s t : String} (hs : spelled? l = some s)
    (ht : spelled? m = some t) (h : byteCount (stringText l) = byteCount (stringText m)) :
    s.isEmpty = t.isEmpty := by
  rw [Bool.eq_iff_iff, isEmpty_iff_byteCount hs, isEmpty_iff_byteCount ht, h]

/-- Whether a literal is a string. -/
def Scalar.IsString : Scalar → Prop
  | .string _ => True
  | _ => False

/-- Whether a literal in a hole is not refused where a text is asked for: it is a string, or it is
not looked at since there is a bracket around it. -/
def Context.FitsText (s : Scalar) : Context → Prop
  | .hole => s.IsString
  | .within _ _ => True

/-- Whether a literal in a hole is not refused where texts with names are asked for. -/
def Context.FitsTexts (s : Scalar) : Context → Prop
  | .hole => False
  | .within .list _ => True
  | .within .object items => items.value.FitsText s

/-- A bracket is refused without a look at what it holds. -/
theorem mismatch_within (hab : Interchangeable a b) (expected : String) {k : Bracket}
    (items : ItemsContext k) (r : List Char) :
    (mismatch expected (((Context.within k items).fill (.scalar a)).text ++ r)).Alike
      (mismatch expected (((Context.within k items).fill (.scalar b)).text ++ r)) := by
  have hcount := (Context.within k items).byteCount_fill hab
  cases k with
  | list => exact ⟨rfl, rfl, by
      simpa [Context.fill, Value.text, Bracket.opening, mismatch, readFound, Cause.here,
        byteCount_append, byteCount_cons] using hcount⟩
  | object => exact ⟨rfl, rfl, by
      simpa [Context.fill, Value.text, Bracket.opening, mismatch, readFound, Cause.here,
        byteCount_append, byteCount_cons] using hcount⟩

/-- **A text is read in step**, unless it is a number that is refused. -/
theorem text_fill (hab : Interchangeable a b) (c : Context) (gap : Blanks) (r : List Char) :
    Twins a b (¬c.FitsText a) (fun s t => s.isEmpty = t.isEmpty)
      (text (gap.1 ++ ((c.fill (.scalar a)).text ++ r)))
      (text (gap.1 ++ ((c.fill (.scalar b)).text ++ r))) := by
  cases c with
  | within k items =>
    rw [text_other gap (by simp [Context.fill]), text_other gap (by simp [Context.fill])]
    exact .error (mismatch_within hab _ items r)
  | hole =>
    cases hab with
    | numbers h =>
      rw [text_other gap (by simp [Context.fill]), text_other gap (by simp [Context.fill])]
      exact .quoted id "a string" r
    | @strings l m s t hs ht h =>
      obtain ⟨_, hl⟩ := readString_stringText l
      obtain ⟨_, hm⟩ := readString_stringText m
      simp only [Context.fill, text_string, hl, hm, hs, ht]
      refine .ok ?_ r
      exact isEmpty_eq hs ht h

/-- Where a literal can be another, there is no `null`. -/
theorem Interchangeable.fill_ne_null (hab : Interchangeable a b) (c : Context) :
    c.fill (.scalar a) ≠ .scalar .null ∧ c.fill (.scalar b) ≠ .scalar .null := by
  cases c with
  | within k items => exact ⟨nofun, nofun⟩
  | hole => cases hab <;> exact ⟨nofun, nofun⟩

/-- A value that may be `null` is read in step if it is without. -/
theorem orDefault_fill {R : α → α → Prop} {read : Decoder α} (hab : Interchangeable a b)
    (default : α) (c : Context) (gap : Blanks) (r : List Char)
    (h : Twins a b P R (read ((c.fill (.scalar a)).text ++ r))
      (read ((c.fill (.scalar b)).text ++ r))) :
    Twins a b P R (orDefault default read (gap.1 ++ ((c.fill (.scalar a)).text ++ r)))
      (orDefault default read (gap.1 ++ ((c.fill (.scalar b)).text ++ r))) := by
  rw [orDefault_other default read gap (hab.fill_ne_null c).1,
    orDefault_other default read gap (hab.fill_ne_null c).2]
  exact h

/-! ## Dictionaries -/

theorem dictionaryMember_keepsRelated {add : σ → String → α → σ} {value : Decoder α}
    (hadd : ∀ s t key v, R s t → R (add s key v) (add t key v)) :
    KeepsRelated R (dictionaryMember add value) := by
  intro a b P s t h key cs
  unfold dictionaryMember
  cases readColon cs with
  | error fault => exact .error .rfl
  | ok rest =>
    simp only
    cases value rest with
    | error fault => exact .error .rfl
    | ok read => exact .ok (hadd s t key read.1 h) read.2

/-- **Texts with names are read in step**, unless the literal is refused: it stands for all of them,
or it is one of them and a number. -/
theorem dictionary_fill (hab : Interchangeable a b) {add : σ → String → String → σ}
    (hadd : ∀ s t key v, R s t → R (add s key v) (add t key v))
    (hempty : ∀ s key v w, v.isEmpty = w.isEmpty → R (add s key v) (add s key w)) (start : σ)
    (c : Context) (gap : Blanks) (r : List Char) :
    Twins a b (¬c.FitsTexts a) R
      (dictionary add start text (gap.1 ++ ((c.fill (.scalar a)).text ++ r)))
      (dictionary add start text (gap.1 ++ ((c.fill (.scalar b)).text ++ r))) := by
  match c with
  | .hole =>
    have hscalar : ∀ (s : Scalar) items, Context.hole.fill (.scalar s) ≠ .bracketed .object items :=
      nofun
    rw [dictionary_other add start text gap (hscalar a),
      dictionary_other add start text gap (hscalar b)]
    exact .quoted id "a map" r
  | .within .list items =>
    have hlist : ∀ (s : Scalar) others,
        (Context.within .list items).fill (.scalar s) ≠ .bracketed .object others := nofun
    rw [dictionary_other add start text gap (hlist a),
      dictionary_other add start text gap (hlist b)]
    exact .error (mismatch_within hab "a map" items r)
  | .within .object items =>
    simp only [Context.fill, dictionary_object]
    refine members_fill hab (dictionaryMember_means text_means add).settles
      (dictionaryMember_keepsRelated hadd) items (fun key _ s behind gap r _ => ?_) start r
    simp only [dictionaryMember, readColon_gap]
    exact (text_fill hab items.value gap r).map fun v w h => hempty s key v w h

/-! ## Records -/

namespace Shape

variable {shape : Shape σ}

/-- Whether all fields keep values related. -/
def KeepsFields (R : σ → σ → Prop) (shape : Shape σ) : Prop :=
  ∀ field ∈ shape.fields, ∀ a b P s t, R s t → ∀ cs,
    Twins a b P R (field.read s cs) (field.read t cs)

/-- What is known of a record is related, and the same members are known. -/
def KnownRelated (R : σ → σ → Prop) (x y : σ × List String) : Prop :=
  R x.1 y.1 ∧ x.2 = y.2

theorem member_keepsRelated (h : shape.KeepsFields R) :
    KeepsRelated (KnownRelated R) shape.member := by
  rintro a b P ⟨s, seen⟩ ⟨t, _⟩ ⟨hst, rfl⟩ key cs
  simp only at hst
  cases hfind : shape.fields.find? fun field => field.name == key with
  | none =>
    simp only [member, hfind]
    cases readColon cs with
    | error fault => exact .error .rfl
    | ok rest =>
      simp only
      cases skipValue rest with
      | error fault => exact .error .rfl
      | ok rest => exact .ok ⟨hst, rfl⟩ rest
  | some field =>
    simp only [member, hfind]
    split
    · exact .error .rfl
    · cases readColon cs with
      | error fault => exact .error .rfl
      | ok rest =>
        refine (h field (List.mem_of_find?_eq_some hfind) a b P s t hst rest).readOn
          fun s' t' rest' h' _ => ?_
        exact .ok ⟨h', rfl⟩ rest'

/-- A member is read in step if its field is. One that no field asks for is passed over. -/
theorem member_fill (hab : Interchangeable a b) (hrefl : ∀ s, R s s) (c : Context) (key : String)
    (hfield : ∀ field, (shape.fields.find? fun field => field.name == key) = some field →
      ∀ (s : σ) (gap : Blanks) (r : List Char), Twins a b P R
        (field.read s (gap.1 ++ ((c.fill (.scalar a)).text ++ r)))
        (field.read s (gap.1 ++ ((c.fill (.scalar b)).text ++ r))))
    (known : σ × List String) (behind gap : Blanks) {r : List Char} (hr : Delimits r) :
    Twins a b P (KnownRelated R)
      (shape.member known key (behind.1 ++ ':' :: (gap.1 ++ ((c.fill (.scalar a)).text ++ r))))
      (shape.member known key (behind.1 ++ ':' :: (gap.1 ++ ((c.fill (.scalar b)).text ++ r)))) := by
  cases hfind : shape.fields.find? fun field => field.name == key with
  | none =>
    simp only [member, hfind, readColon_gap, skipValue_text gap _ hr]
    exact .ok ⟨hrefl known.1, rfl⟩ r
  | some field =>
    by_cases hseen : (shape.unique && known.2.contains key) = true
    · simp only [member, hfind, hseen, if_true, duplicateFault_colon]
      refine .error ⟨rfl, rfl, ?_⟩
      simp only [Cause.here, byteCount_cons, byteCount_append, c.byteCount_fill hab]
    · simp only [member, hfind, hseen, Bool.false_eq_true, if_false, readColon_gap]
      refine (hfield field hfind known.1 gap r).readOn fun s t rest h _ => ?_
      exact .ok ⟨h, rfl⟩ rest

/-- **A record is read in step** if the field is whose value has the hole. -/
theorem read_fill (hab : Interchangeable a b) (hsettles : shape.SettlesFields)
    (hkeeps : shape.KeepsFields R) (hrefl : ∀ s, R s s) (c : ItemsContext .object)
    (hfield : ∀ key, c.key.name? = some key →
      ∀ field, (shape.fields.find? fun field => field.name == key) = some field →
      ∀ (s : σ) (gap : Blanks) (r : List Char), Twins a b P R
        (field.read s (gap.1 ++ ((c.value.fill (.scalar a)).text ++ r)))
        (field.read s (gap.1 ++ ((c.value.fill (.scalar b)).text ++ r))))
    (start : σ) (gap : Blanks) (r : List Char) :
    let text (s : Scalar) := gap.1 ++ ((Value.bracketed .object (c.fill (.scalar s))).text ++ r)
    Twins a b P R (shape.read start (text a)) (shape.read start (text b)) := by
  intro text
  have hmembers : Twins a b P (KnownRelated R)
      (members shape.member (start, []) ((c.fill (.scalar a)).text true ++ r))
      (members shape.member (start, []) ((c.fill (.scalar b)).text true ++ r)) :=
    members_fill hab (member_settles hsettles) (member_keepsRelated hkeeps) c
      (fun key hkey known behind gap r hr =>
        member_fill hab hrefl c.value key (hfield key hkey) known behind gap hr) (start, []) r
  simp only [text, read_object]
  refine hmembers.readOn fun known known' rest h _ => ?_
  rw [finish, finish, ← h.2]
  split
  · exact .error .rfl
  · exact .ok h.1 rest

end Shape

/-! ## Whole texts -/

/-- What was read as a whole, if there is nothing behind it but blanks. -/
def ended (x : Outcome α) : Except Fault α :=
  match x with
  | .error fault => .error fault
  | .ok (value, rest) =>
    match skipBlanks rest with
    | [] => .ok value
    | rest => .error (Cause.trailingCharacters.next rest)

theorem decode_ofList (decoder : Decoder α) (cs : List Char) :
    decode decoder (String.ofList cs) = ended (decoder cs) := by
  rw [decode, String.toList_ofList]
  rfl

end CredentialRelay.Json
