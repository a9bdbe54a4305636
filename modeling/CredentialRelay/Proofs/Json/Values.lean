import CredentialRelay.Proofs.Json.Scalars

/-!
# Reading values of the grammar

A value of the grammar is passed over up to its end. A reader that asks for a kind of value takes
it or refuses it, and which of the two does not depend on what comes behind. So the members of an
object are read one after another, and the outcome of each is known before the next is looked at.

* `SettlesValues read`: the outcome of `read` on a value does not depend on what comes behind.
* `SettlesMembers member`: neither does that of `member` on a colon and a value.
* `Means read meaning`, `MeansMembers member step`: it is what the value means, or a fault if that
  is nothing.

Results:
* `skipValue_text`: a value is passed over up to its end, however deep its brackets are.
* `membersFrom_means`: members are read for what they mean, one after another.
* `text_means`, `orDefault_means`, `dictionary_means`, `Shape.member_means`: what the members of a
  record mean.
-/

namespace CredentialRelay.Json

/-! ## The ends of values -/

theorem isBlank_of_not_isDelimiter {c : Char} (h : isDelimiter c = false) : isBlank c = false := by
  simp only [isDelimiter, Bool.or_eq_false_iff] at h
  exact h.1.1.1

theorem isDelimiter_of_isDigit {c : Char} (h : c.isDigit = true) : isDelimiter c = false := by
  cases hc : isDelimiter c with
  | false => rfl
  | true =>
    rw [isDigit_of_isDelimiter hc] at h
    cases h

/-- What a character tells of a value that begins with it. -/
structure Value.BeginsWith (v : Value) (c : Char) : Prop where
  not_delimiter : isDelimiter c = false
  of_quote : c = '"' → ∃ glyphs, v = .scalar (.string glyphs)
  of_null : c = 'n' → v = .scalar .null
  of_list : c = '[' → ∃ items, v = .bracketed .list items
  of_object : c = '\x7b' → ∃ items, v = .bracketed .object items

/-- A digit begins a number. -/
theorem Value.beginsWith_digit {d : Char} (hd : d.isDigit = true) (v : Value) :
    v.BeginsWith d where
  not_delimiter := isDelimiter_of_isDigit hd
  of_quote := by
    rintro rfl
    cases hd
  of_null := by
    rintro rfl
    cases hd
  of_list := by
    rintro rfl
    cases hd
  of_object := by
    rintro rfl
    cases hd

/-- A value begins with a character that tells its kind. -/
theorem Value.text_cons (v : Value) : ∃ c cs, v.text = c :: cs ∧ v.BeginsWith c := by
  match v with
  | .scalar .null => exact ⟨'n', _, rfl, by decide, nofun, fun _ => rfl, nofun, nofun⟩
  | .scalar (.boolean true) => exact ⟨'t', _, rfl, by decide, nofun, nofun, nofun, nofun⟩
  | .scalar (.boolean false) => exact ⟨'f', _, rfl, by decide, nofun, nofun, nofun, nofun⟩
  | .scalar (.string glyphs) =>
    exact ⟨'"', _, rfl, by decide, fun _ => ⟨glyphs, rfl⟩, nofun, nofun, nofun⟩
  | .scalar (.number n) =>
    rcases n.text_cases with htext | ⟨d, cs, htext, hcs, hd⟩
    · exact ⟨'-', n.magnitude, htext, by decide, nofun, nofun, nofun, nofun⟩
    · exact ⟨d, cs, htext.trans hcs, beginsWith_digit hd _⟩
  | .bracketed .list items =>
    exact ⟨'[', _, rfl, by decide, nofun, nofun, fun _ => ⟨items, rfl⟩, nofun⟩
  | .bracketed .object items =>
    exact ⟨'\x7b', _, rfl, by decide, nofun, nofun, nofun, fun _ => ⟨items, rfl⟩⟩

theorem skipBlanks_text (gap : Blanks) (v : Value) (r : List Char) :
    skipBlanks (gap.1 ++ (v.text ++ r)) = v.text ++ r := by
  obtain ⟨c, cs, htext, hc⟩ := v.text_cons
  rw [skipBlanks_append, htext]
  exact skipBlanks_cons (isBlank_of_not_isDelimiter hc.not_delimiter) (cs ++ r)

/-- Blanks with a delimiter behind them delimit. -/
theorem delimits_gap (gap : Blanks) {c : Char} (h : isDelimiter c = true) (cs : List Char) :
    Delimits (gap.1 ++ c :: cs) := by
  obtain ⟨_ | ⟨b, bs⟩, hblank⟩ := gap
  · rintro d ⟨⟩
    exact h
  · rintro d ⟨⟩
    simp [isDelimiter, hblank b List.mem_cons_self]

theorem isDelimiter_closing (b : Bracket) : isDelimiter b.closing = true := by
  cases b <;> rfl

/-- What follows an item delimits its value. -/
theorem Items.delimits {b : Bracket} (items : Items b) (r : List Char) :
    Delimits (items.text false ++ r) := by
  match items with
  | .close gap =>
    rw [Items.text, List.append_assoc]
    exact delimits_gap gap (isDelimiter_closing b) r
  | .item gap key value others =>
    rw [Items.text, List.append_assoc]
    exact delimits_gap gap (by rfl) _

/-! ## Passing over -/

/-- The blanks between a key and its value. -/
def Key.gap : {b : Bracket} → Key b → Blanks
  | _, .element gap => gap
  | _, .member _ _ _ gap => gap

theorem readColon_gap (gap : Blanks) (cs : List Char) :
    readColon (gap.1 ++ ':' :: cs) = .ok cs := by
  rw [readColon, skipBlanks_append, skipBlanks_cons (by rfl)]
  rfl

/-- A key is passed over up to its value. -/
theorem skipKey_text {b : Bracket} (key : Key b) (cs : List Char) :
    skipKey b (key.text ++ cs) = .ok (key.gap.1 ++ cs) := by
  cases key with
  | element gap => rfl
  | member ahead name behind gap =>
    simp only [skipKey, Key.text, List.append_assoc, List.cons_append, skipBlanks_append]
    rw [skipBlanks_cons (by rfl)]
    simp only [skipString_stringText]
    exact readColon_gap behind _

/-- The first key of a bracket is no closing bracket, and is passed over up to its value. -/
theorem skipKey_first {b : Bracket} (key : Key b) (v : Value) (r : List Char) :
    ∃ c cs, skipBlanks (key.text ++ (v.text ++ r)) = c :: cs ∧ b.closedBy c = false ∧
      ∃ gap : Blanks, skipKey b (c :: cs) = .ok (gap.1 ++ (v.text ++ r)) := by
  cases key with
  | element gap =>
    obtain ⟨c, cs, htext, hc⟩ := v.text_cons
    have hblanks := skipBlanks_text gap v r
    rw [htext] at hblanks ⊢
    refine ⟨c, cs ++ r, hblanks, ?_, Blanks.none, rfl⟩
    have hclosing := hc.not_delimiter
    simp only [isDelimiter, Bool.or_eq_false_iff] at hclosing
    exact hclosing.1.2
  | member ahead name behind gap =>
    have hkey := skipKey_text (.member Blanks.none name behind gap) (v.text ++ r)
    simp only [Key.text, List.append_assoc, List.cons_append, skipBlanks_append]
    rw [skipBlanks_cons (by rfl)]
    refine ⟨_, _, rfl, rfl, gap, ?_⟩
    simpa only [Key.text, Key.gap, Blanks.none, List.nil_append, List.append_assoc,
      List.cons_append] using hkey

mutual

/-- A value is passed over in no more than twice as many steps as it has characters. -/
theorem skipFrom_value (v : Value) : ∃ k, k + 1 ≤ 2 * v.text.length ∧
    ∀ (gap : Blanks) (fuel : Nat) (stack : List Bracket) (r : List Char), Delimits r →
      skipFrom (fuel + k) .value stack (gap.1 ++ (v.text ++ r)) = skipFrom fuel .more stack r := by
  match v with
  | .scalar s =>
    obtain ⟨c, cs, htext, hc⟩ := (Value.scalar s).text_cons
    refine ⟨1, ?_, fun gap fuel stack r hr => ?_⟩
    · rw [htext, List.length_cons]
      omega
    · have hskip : skipScalar ((Value.scalar s).text ++ r) = .ok r := skipScalar_text s hr
      rw [skipFrom, skipBlanks_text]
      rw [htext] at hskip ⊢
      split
      · next h => exact nomatch hc.of_list (List.cons.inj h).1
      · next h => exact nomatch hc.of_object (List.cons.inj h).1
      · rw [hskip]
  | .bracketed b items =>
    obtain ⟨k, hk, hitems⟩ := skipFrom_items items true
    refine ⟨k + 1, ?_, fun gap fuel stack r hr => ?_⟩
    · simp only [Value.text, List.length_cons]
      omega
    · rw [← Nat.add_assoc, skipFrom, skipBlanks_text]
      cases b with
      | list => exact hitems fuel stack r
      | object => exact hitems fuel stack r

/-- So are the items of a bracket up to its end. -/
theorem skipFrom_items {b : Bracket} (items : Items b) (first : Bool) :
    ∃ k, k ≤ 2 * (items.text first).length ∧
      ∀ (fuel : Nat) (stack : List Bracket) (r : List Char),
        skipFrom (fuel + k) (if first then .first else .more) (b :: stack)
          (items.text first ++ r) = skipFrom fuel .more stack r := by
  match items with
  | .close gap =>
    refine ⟨1, ?_, fun fuel stack r => ?_⟩
    · simp only [Items.text, List.length_append, List.length_cons]
      omega
    · have hblanks : skipBlanks ((Items.close gap : Items b).text first ++ r) = b.closing :: r := by
        rw [Items.text, List.append_assoc, skipBlanks_append]
        exact skipBlanks_cons (by cases b <;> rfl) r
      cases first <;> cases b <;> simp [skipFrom, hblanks, Bracket.closing, Bracket.closedBy]
  | .item gap key value others =>
    obtain ⟨m, hm, hvalue⟩ := skipFrom_value value
    obtain ⟨n, hn, hothers⟩ := skipFrom_items others false
    refine ⟨n + m + 1, ?_, fun fuel stack r => ?_⟩
    · simp only [Items.text, List.length_append]
      omega
    · have hstep (gap : Blanks) : skipFrom (fuel + (n + m)) .value (b :: stack)
          (gap.1 ++ (value.text ++ (others.text false ++ r))) = skipFrom fuel .more stack r := by
        rw [← Nat.add_assoc, hvalue gap _ _ _ (others.delimits r)]
        exact hothers fuel stack r
      simp only [Items.text, List.append_assoc]
      rw [← Nat.add_assoc]
      cases first with
      | true =>
        obtain ⟨c, cs, hblanks, hopen, gap', hkey⟩ :=
          skipKey_first key value (others.text false ++ r)
        simp only [separator, if_true, List.nil_append, skipFrom, skipBlanks_append, hblanks, hopen,
          hkey, hstep, Bool.false_eq_true, if_false]
      | false =>
        simp only [separator, Bool.false_eq_true, if_false, skipFrom, skipBlanks_append,
          List.cons_append, List.nil_append]
        rw [skipBlanks_cons (by rfl)]
        simp only [if_true, skipKey_text, hstep]

end

/-- **A value is passed over** up to its end, however deep its brackets are. -/
theorem skipValue_text (gap : Blanks) (v : Value) {r : List Char} (hr : Delimits r) :
    skipValue (gap.1 ++ (v.text ++ r)) = .ok r := by
  obtain ⟨k, hk, hskip⟩ := skipFrom_value v
  unfold skipValue
  obtain ⟨fuel, hfuel⟩ : ∃ fuel, 2 * (gap.1 ++ (v.text ++ r)).length + 2 = fuel + 1 + k := by
    refine ⟨2 * (gap.1 ++ (v.text ++ r)).length + 1 - k, ?_⟩
    simp only [List.length_append]
    omega
  rw [hfuel, hskip gap (fuel + 1) [] r hr]
  rfl

/-! ## Reading values -/

variable {α σ : Type}

/-- What a value is found to be does not depend on what comes behind. -/
theorem settles_mismatch (expected : String) (v : Value) :
    ∃ fault : Fault, ∀ r, Delimits r → mismatch expected (v.text ++ r) = fault.behind r := by
  match v with
  | .scalar s =>
    obtain ⟨o, ho⟩ := settles_readFound s
    cases o with
    | ok found =>
      refine ⟨(Cause.invalidType found expected).here [], fun r hr => ?_⟩
      simp only [mismatch, Value.text, ho r hr]
      rfl
    | error fault =>
      refine ⟨fault, fun r hr => ?_⟩
      simp only [mismatch, Value.text, ho r hr]
      rfl
  | .bracketed .list items =>
    exact ⟨(Cause.invalidType .list expected).here (Value.bracketed .list items).text,
      fun r _ => rfl⟩
  | .bracketed .object items =>
    exact ⟨(Cause.invalidType .object expected).here (Value.bracketed .object items).text,
      fun r _ => rfl⟩

/-- A reader whose outcome on a value does not depend on what comes behind. -/
def SettlesValues (read : Decoder α) : Prop :=
  ∀ (gap : Blanks) (v : Value), Settles read (gap.1 ++ v.text)

/-- Whether a reader takes a value for what that means, whatever comes behind, and refuses it if
that is nothing. -/
def Means (read : Decoder α) (meaning : Value → Option α) : Prop :=
  ∀ (gap : Blanks) (v : Value), Takes read (gap.1 ++ v.text) (meaning v)

theorem Means.settles {read : Decoder α} {meaning : Value → Option α} (h : Means read meaning) :
    SettlesValues read :=
  fun gap v => (h gap v).settles

theorem Means.map {β : Type} {read : Decoder α} {meaning : Value → Option α}
    (h : Means read meaning) (f : α → β) :
    Means (fun cs => (read cs).map fun (value, rest) => (f value, rest))
      fun v => (meaning v).map f :=
  fun gap v => (h gap v).map f

theorem text_string (gap : Blanks) (glyphs : List Glyph) (r : List Char) :
    text (gap.1 ++ ((Value.scalar (.string glyphs)).text ++ r)) =
      readString (stringText glyphs ++ r) := by
  rw [text, skipBlanks_text]
  rfl

theorem text_other (gap : Blanks) {v : Value} (hv : ∀ glyphs, v ≠ .scalar (.string glyphs))
    (r : List Char) :
    text (gap.1 ++ (v.text ++ r)) = .error (mismatch "a string" (v.text ++ r)) := by
  obtain ⟨c, cs, htext, hc⟩ := v.text_cons
  rw [text, skipBlanks_text, htext]
  split
  · next h =>
    obtain ⟨glyphs, hstring⟩ := hc.of_quote (List.cons.inj h).1
    exact absurd hstring (hv glyphs)
  · next h => cases h
  · rfl

theorem Value.string?_other {v : Value} (hv : ∀ glyphs, v ≠ .scalar (.string glyphs)) :
    v.string? = none := by
  unfold string?
  split
  · next glyphs => exact absurd rfl (hv glyphs)
  · rfl

theorem text_means : Means text Value.string? := by
  intro gap v
  by_cases hv : ∃ glyphs, v = .scalar (.string glyphs)
  · obtain ⟨glyphs, rfl⟩ := hv
    obtain ⟨fault, h⟩ := readString_stringText glyphs
    refine ⟨fault, fun r _ => ?_⟩
    rw [List.append_assoc, text_string, h]
    rfl
  · obtain ⟨fault, h⟩ := settles_mismatch "a string" v
    refine ⟨fault, fun r hr => ?_⟩
    rw [List.append_assoc, text_other gap (not_exists.mp hv), h r hr,
      Value.string?_other (not_exists.mp hv)]
    rfl

theorem orDefault_null (default : α) (read : Decoder α) (gap : Blanks) (r : List Char) :
    orDefault default read (gap.1 ++ ((Value.scalar .null).text ++ r)) = .ok (default, r) := by
  rw [orDefault, skipBlanks_text]
  rfl

theorem orDefault_other (default : α) (read : Decoder α) (gap : Blanks) {v : Value}
    (hv : v ≠ .scalar .null) (r : List Char) :
    orDefault default read (gap.1 ++ (v.text ++ r)) = read (v.text ++ r) := by
  obtain ⟨c, cs, htext, hc⟩ := v.text_cons
  rw [orDefault, skipBlanks_text, htext]
  split
  · next h => exact absurd (hc.of_null (List.cons.inj h).1) hv
  · rfl

theorem Value.orNull_other (default : α) (meaning : Value → Option α) {v : Value}
    (hv : v ≠ .scalar .null) : v.orNull default meaning = meaning v := by
  unfold orNull
  split
  · exact absurd rfl hv
  · rfl

theorem orDefault_means {read : Decoder α} {meaning : Value → Option α} (h : Means read meaning)
    (default : α) : Means (orDefault default read) (Value.orNull default meaning) := by
  intro gap v
  by_cases hv : v = .scalar .null
  · subst hv
    refine ⟨Cause.endInValue.here [], fun r _ => ?_⟩
    rw [List.append_assoc, orDefault_null]
    rfl
  · obtain ⟨fault, ho⟩ := h Blanks.none v
    refine ⟨fault, fun r hr => ?_⟩
    rw [List.append_assoc, orDefault_other default read gap hv, v.orNull_other default meaning hv,
      ← ho r hr]
    rfl

/-! ## Members -/

/-- Goes on behind what was read. -/
def readOn (x : Outcome α) (next : α → Decoder σ) : Outcome σ :=
  match x with
  | .error fault => .error fault
  | .ok (value, rest) => next value rest

/-- A reader of members whose outcome on a colon and a value does not depend on what comes
behind. -/
def SettlesMembers (member : σ → String → Decoder σ) : Prop :=
  ∀ (s : σ) (name : String) (behind gap : Blanks) (v : Value),
    Settles (member s name) (behind.1 ++ ':' :: (gap.1 ++ v.text))

/-- Whether a reader of members takes a colon and a value for what they mean behind their name. -/
def MeansMembers (member : σ → String → Decoder σ) (step : σ → String → Value → Option σ) : Prop :=
  ∀ (s : σ) (name : String) (behind gap : Blanks) (v : Value),
    Takes (member s name) (behind.1 ++ ':' :: (gap.1 ++ v.text)) (step s name v)

theorem MeansMembers.settles {member : σ → String → Decoder σ}
    {step : σ → String → Value → Option σ} (h : MeansMembers member step) : SettlesMembers member :=
  fun s name behind gap v => (h s name behind gap v).settles

theorem Fault.behind_behind (f : Fault) (r s : List Char) :
    (f.behind r).behind s = f.behind (r ++ s) := by
  simp only [Fault.behind, List.append_assoc]

theorem nextKey_close (gap : Blanks) (first : Bool) (r : List Char) :
    nextKey first ((Items.close gap : Items .object).text first ++ r) = .ok (none, r) := by
  rw [nextKey, Items.text, List.append_assoc, skipBlanks_append]
  rfl

theorem nextKey_item (gap ahead : Blanks) (first : Bool) (cs : List Char) :
    nextKey first (gap.1 ++ (separator first ++ (ahead.1 ++ '"' :: cs))) = .ok (some cs, []) := by
  cases first with
  | true =>
    rw [nextKey, skipBlanks_append]
    simp only [separator, if_true, List.nil_append, skipBlanks_append]
    rw [skipBlanks_cons (by rfl)]
    rfl
  | false =>
    rw [nextKey, skipBlanks_append]
    simp only [separator, Bool.false_eq_true, if_false, List.cons_append, List.nil_append]
    rw [skipBlanks_cons (by rfl)]
    simp only [skipBlanks_append, skipBlanks_cons (show isBlank '"' = false from rfl)]
    rfl

theorem Items.text_member (gap ahead : Blanks) (name : List Glyph) (behind vgap : Blanks)
    (v : Value) (others : Items .object) (first : Bool) (r : List Char) :
    (Items.item gap (.member ahead name behind vgap) v others).text first ++ r =
      gap.1 ++ (separator first ++ (ahead.1 ++ '"' :: (stringText name ++
        (behind.1 ++ ':' :: (vgap.1 ++ (v.text ++ (others.text false ++ r))))))) := by
  simp only [Items.text, Key.text, List.append_assoc, List.cons_append]

/-- A member with a name is read by that name. -/
theorem membersFrom_named (member : σ → String → Decoder σ) (gap ahead : Blanks)
    {name : List Glyph} {key : String} (h : spelled? name = some key) (fuel : Nat) (first : Bool)
    (s : σ) (cs : List Char) :
    membersFrom member (fuel + 1) first s
        (gap.1 ++ (separator first ++ (ahead.1 ++ '"' :: (stringText name ++ cs)))) =
      readOn (member s key cs) (membersFrom member fuel false) := by
  obtain ⟨fault, hname⟩ := readString_stringText name
  rw [membersFrom, nextKey_item]
  simp only [hname, h, orFault, leaving]
  rfl

/-- A name that says nothing is a fault, whatever comes behind. -/
theorem membersFrom_unnamed {name : List Glyph} (h : spelled? name = none) :
    ∃ fault : Fault, ∀ (member : σ → String → Decoder σ) (gap ahead : Blanks) (fuel : Nat)
      (first : Bool) (s : σ) (cs : List Char),
      membersFrom member (fuel + 1) first s
        (gap.1 ++ (separator first ++ (ahead.1 ++ '"' :: (stringText name ++ cs)))) =
      .error (fault.behind cs) := by
  obtain ⟨fault, hname⟩ := readString_stringText name
  refine ⟨fault, fun member gap ahead fuel first s cs => ?_⟩
  rw [membersFrom, nextKey_item]
  simp only [hname, h, orFault, leaving]

/-- A member is read up to the members behind it. -/
theorem SettlesMembers.among {member : σ → String → Decoder σ} (h : SettlesMembers member) (s : σ)
    (key : String) (behind gap : Blanks) (v : Value) :
    ∃ o : Except Fault σ, ∀ (others : Items .object) (r : List Char),
      member s key (behind.1 ++ ':' :: (gap.1 ++ (v.text ++ (others.text false ++ r)))) =
        leaving o (others.text false ++ r) := by
  obtain ⟨o, ho⟩ := h s key behind gap v
  exact ⟨o, fun others r => by
    simpa only [List.append_assoc, List.cons_append] using ho _ (others.delimits r)⟩

/-- **The members of an object are read for what they mean**, one after another, whatever comes
behind. -/
theorem membersFrom_means {member : σ → String → Decoder σ} {step : σ → String → Value → Option σ}
    (h : MeansMembers member step) (items : Items .object) (first : Bool) (s : σ) :
    ∃ fault, ∀ fuel, items.count < fuel → ∀ r,
      membersFrom member fuel first s (items.text first ++ r) =
        leaving (orFault (items.members.run step s) fault) r := by
  match items with
  | .close gap =>
    refine ⟨Cause.endInObject.here [], fun fuel hfuel r => ?_⟩
    obtain ⟨fuel, rfl⟩ := Nat.exists_eq_succ_of_ne_zero (Nat.ne_of_gt hfuel)
    rw [membersFrom, nextKey_close]
    rfl
  | .item gap (.member ahead name behind vgap) v others =>
    cases hname : spelled? name with
    | none =>
      obtain ⟨fault, hfault⟩ := membersFrom_unnamed (σ := σ) hname
      refine ⟨fault.behind (behind.1 ++ ':' :: (vgap.1 ++ (v.text ++ others.text false))),
        fun fuel hfuel r => ?_⟩
      obtain ⟨fuel, rfl⟩ := Nat.exists_eq_succ_of_ne_zero (Nat.ne_of_gt (Nat.zero_lt_of_lt hfuel))
      rw [Items.members_item, hname, Members.run_unnamed, orFault, leaving, Items.text_member,
        hfault, Fault.behind_behind]
      simp only [List.append_assoc, List.cons_append]
    | some key =>
      obtain ⟨fault, hread⟩ := h s key behind vgap v
      have hamong (r : List Char) :
          member s key (behind.1 ++ ':' :: (vgap.1 ++ (v.text ++ (others.text false ++ r)))) =
            leaving (orFault (step s key v) fault) (others.text false ++ r) := by
        simpa only [List.append_assoc, List.cons_append] using hread _ (others.delimits r)
      rw [Items.members_item, hname, Members.run_named]
      cases hstep : step s key v with
      | none =>
        refine ⟨fault.behind (others.text false), fun fuel hfuel r => ?_⟩
        obtain ⟨fuel, rfl⟩ := Nat.exists_eq_succ_of_ne_zero (Nat.ne_of_gt (Nat.zero_lt_of_lt hfuel))
        rw [Items.text_member, membersFrom_named member gap ahead hname, hamong, hstep]
        exact congrArg Except.error (fault.behind_behind _ r).symm
      | some s' =>
        obtain ⟨fault, ho⟩ := membersFrom_means h others false s'
        refine ⟨fault, fun fuel hfuel r => ?_⟩
        obtain ⟨fuel, rfl⟩ := Nat.exists_eq_succ_of_ne_zero (Nat.ne_of_gt (Nat.zero_lt_of_lt hfuel))
        rw [Items.text_member, membersFrom_named member gap ahead hname, hamong, hstep]
        exact ho fuel (Nat.lt_of_succ_lt_succ hfuel) r

/-- There are no more items than characters. -/
theorem Items.count_lt {b : Bracket} (items : Items b) (first : Bool) :
    items.count < (items.text first).length := by
  match items with
  | .close gap =>
    simp only [Items.count, Items.text, List.length_append, List.length_cons]
    omega
  | .item gap key v others =>
    have := others.count_lt false
    obtain ⟨c, cs, htext, -⟩ := v.text_cons
    simp only [Items.count, Items.text, htext, List.length_append, List.length_cons]
    omega

theorem members_means {member : σ → String → Decoder σ} {step : σ → String → Value → Option σ}
    (h : MeansMembers member step) (items : Items .object) (s : σ) :
    ∃ fault, ∀ r, members member s (items.text true ++ r) =
      leaving (orFault (items.members.run step s) fault) r := by
  obtain ⟨fault, ho⟩ := membersFrom_means h items true s
  refine ⟨fault, fun r => ho _ ?_ r⟩
  have := items.count_lt true
  rw [List.length_append]
  omega

/-! ## Dictionaries and records -/

/-- How a dictionary reads a member. -/
def dictionaryMember (add : σ → String → α → σ) (value : Decoder α) (s : σ) (key : String) :
    Decoder σ := fun cs =>
  match readColon cs with
  | .error fault => .error fault
  | .ok rest => (value rest).map fun (v, rest) => (add s key v, rest)

theorem dictionary_object (add : σ → String → α → σ) (start : σ) (value : Decoder α) (gap : Blanks)
    (items : Items .object) (r : List Char) :
    dictionary add start value (gap.1 ++ ((Value.bracketed .object items).text ++ r)) =
      members (dictionaryMember add value) start (items.text true ++ r) := by
  rw [dictionary, skipBlanks_text]
  rfl

theorem dictionary_other (add : σ → String → α → σ) (start : σ) (value : Decoder α) (gap : Blanks)
    {v : Value} (hv : ∀ items, v ≠ .bracketed .object items) (r : List Char) :
    dictionary add start value (gap.1 ++ (v.text ++ r)) =
      .error (mismatch "a map" (v.text ++ r)) := by
  obtain ⟨c, cs, htext, hc⟩ := v.text_cons
  rw [dictionary, skipBlanks_text, htext]
  split
  · next h =>
    obtain ⟨items, hobject⟩ := hc.of_object (List.cons.inj h).1
    exact absurd hobject (hv items)
  · next h => cases h
  · rfl

theorem Value.object?_other {v : Value} (hv : ∀ items, v ≠ .bracketed .object items) :
    v.object? = none := by
  unfold object?
  split
  · next items => exact absurd rfl (hv items)
  · rfl

theorem dictionaryMember_means {value : Decoder α} {meaning : Value → Option α}
    (h : Means value meaning) (add : σ → String → α → σ) :
    MeansMembers (dictionaryMember add value) fun s key v => (meaning v).map (add s key) := by
  intro s key behind gap v
  obtain ⟨fault, ho⟩ := (h gap v).map (add s key)
  refine ⟨fault, fun r hr => ?_⟩
  rw [← ho r hr, dictionaryMember, List.append_assoc, List.cons_append, readColon_gap]

theorem dictionary_means {value : Decoder α} {meaning : Value → Option α} (h : Means value meaning)
    (add : σ → String → α → σ) (start : σ) :
    Means (dictionary add start value) fun v => v.object?.bind fun ms =>
      ms.run (fun s key v => (meaning v).map (add s key)) start := by
  intro gap v
  by_cases hv : ∃ items, v = .bracketed .object items
  · obtain ⟨items, rfl⟩ := hv
    obtain ⟨fault, ho⟩ := members_means (dictionaryMember_means h add) items start
    refine ⟨fault, fun r _ => ?_⟩
    rw [List.append_assoc, dictionary_object, ho r]
    rfl
  · obtain ⟨fault, hfault⟩ := settles_mismatch "a map" v
    refine ⟨fault, fun r hr => ?_⟩
    simp only [Value.object?_other (not_exists.mp hv)]
    rw [List.append_assoc, dictionary_other add start value gap (not_exists.mp hv), hfault r hr]
    rfl

namespace Shape

variable {shape : Shape σ}

/-- Whether the outcomes of all fields on values do not depend on what comes behind. -/
def SettlesFields (shape : Shape σ) : Prop :=
  ∀ field ∈ shape.fields, ∀ s, SettlesValues (field.read s)

/-- What a record is once its members are read. -/
def finish (shape : Shape σ) (known : σ × List String) : Decoder σ := fun rest =>
  match shape.required.find? fun name => !known.2.contains name with
  | some name => .error ((Cause.missingField name).here rest)
  | none => .ok (known.1, rest)

theorem read_object (start : σ) (gap : Blanks) (items : Items .object) (r : List Char) :
    shape.read start (gap.1 ++ ((Value.bracketed .object items).text ++ r)) =
      readOn (members shape.member (start, []) (items.text true ++ r)) shape.finish := by
  rw [read, skipBlanks_text]
  simp only [Value.text, Bracket.opening, List.cons_append]
  cases members shape.member (start, []) (items.text true ++ r) <;> rfl

theorem duplicateFault_colon (name : String) (gap : Blanks) (cs : List Char) :
    duplicateFault name (gap.1 ++ ':' :: cs) = (Cause.duplicateField name).here (':' :: cs) := by
  rw [duplicateFault, skipBlanks_append, skipBlanks_cons (by rfl)]
  rfl

/-- What is known of a record behind a member, if `value` is what a field makes of it. A member that
no field asks for is passed over, and one that is given twice is refused where that is a fault. -/
def step (shape : Shape σ) (known : σ × List String) (key : String) (value : Member σ → Option σ) :
    Option (σ × List String) :=
  match shape.fields.find? fun field => field.name == key with
  | none => some known
  | some field =>
    if shape.unique && known.2.contains key then none
    else (value field).map fun s => (s, key :: known.2)

theorem member_takes (known : σ × List String) (key : String) (behind gap : Blanks) (v : Value)
    (value : Member σ → Option σ) (hfield : ∀ field,
      (shape.fields.find? fun field => field.name == key) = some field →
        Takes (field.read known.1) (gap.1 ++ v.text) (value field)) :
    Takes (shape.member known key) (behind.1 ++ ':' :: (gap.1 ++ v.text))
      (shape.step known key value) := by
  unfold step
  cases hfind : shape.fields.find? fun field => field.name == key with
  | none =>
    refine ⟨Cause.endInValue.here [], fun r hr => ?_⟩
    rw [List.append_assoc, List.cons_append, List.append_assoc]
    simp only [member, hfind, readColon_gap, skipValue_text gap v hr]
    rfl
  | some field =>
    by_cases hseen : (shape.unique && known.2.contains key) = true
    · refine ⟨(Cause.duplicateField key).here (':' :: (gap.1 ++ v.text)), fun r _ => ?_⟩
      rw [List.append_assoc, List.cons_append]
      simp only [member, hfind, hseen, if_true, duplicateFault_colon]
      rfl
    · obtain ⟨fault, ho⟩ := hfield field hfind
      refine ⟨fault, fun r hr => ?_⟩
      rw [List.append_assoc, List.cons_append]
      simp only [member, hfind, hseen, Bool.false_eq_true, if_false, readColon_gap, ho r hr]
      cases value field <;> rfl

theorem member_settles (h : shape.SettlesFields) : SettlesMembers shape.member := by
  intro known key behind gap v
  have hvalue : ∃ value, ∀ field,
      (shape.fields.find? fun field => field.name == key) = some field →
        Takes (field.read known.1) (gap.1 ++ v.text) value := by
    cases hfind : shape.fields.find? fun field => field.name == key with
    | none => exact ⟨none, nofun⟩
    | some field =>
      obtain ⟨value, hvalue⟩ := (h field (List.mem_of_find?_eq_some hfind) known.1 gap v).takes
      exact ⟨value, fun _ hfound => Option.some.inj hfound ▸ hvalue⟩
  obtain ⟨value, hvalue⟩ := hvalue
  exact (member_takes known key behind gap v (fun _ => value) hvalue).settles

/-- **A record is read for what its members mean**, if its fields are. -/
theorem member_means {means : Member σ → σ → Value → Option σ}
    (h : ∀ field ∈ shape.fields, ∀ s, Means (field.read s) (means field s)) :
    MeansMembers shape.member fun known key v =>
      shape.step known key fun field => means field known.1 v :=
  fun known key behind gap v => member_takes known key behind gap v _ fun field hfind =>
    h field (List.mem_of_find?_eq_some hfind) known.1 gap v

end Shape

end CredentialRelay.Json
