import CredentialRelay.Proofs.Credential.Redaction
import CredentialRelay.Proofs.Cycle.Isolation
import CredentialRelay.Proofs.Cycle.Undecodable

/-!
# What a cycle tells of a credential

Two cycles that work on the same secret but for one literal of one entry, which is of the same sort
and as long in both, tell the same if the literal is kept secret: it belongs to a password, a key, a
certificate or the attributes. The exception is a literal that is refused. The entry then fails with
a fault that says what was found, and that is told.

Results:
* `log_congr`: what a cycle tells depends on what is told of each entry.
* `log_veiled`: cycles over entries that differ in a secret.
* `log_quotes_password`: a password that is a number is told.
-/

namespace CredentialRelay

namespace Cycle

open Log Json

/-! ## Telling -/

/-- Outcomes of an entry that are told and reported alike. -/
structure EntryOutcome.ToldAlike (key : String) (first second : EntryOutcome) : Prop where
  event : first.event key = second.event key
  report : ∀ r : Report, r.add first = r.add second

theorem EntryOutcome.ToldAlike.rfl {key : String} {outcome : EntryOutcome} :
    outcome.ToldAlike key outcome :=
  ⟨.refl _, fun _ => .refl _⟩

/-- **What a cycle tells depends on what is told of each entry.** -/
theorem log_congr (timing : Timing) (job : Job) (metrics : Metrics) (m : Memory)
    (data : Dictionary String) (time : Instant) {key v w : String}
    (h : (m.outcomeOf key v).ToldAlike key (m.outcomeOf key w)) :
    let turn (value : String) :=
      run Memory.services timing job metrics (m.setSecret ⟨data.insert key value, time⟩)
    (turn v).log = (turn w).log := by
  intro turn
  have hsize : (data.insert key v).size = (data.insert key w).size := by
    simp only [Dictionary.size, Dictionary.entries_insert, List.length_append, List.length_cons]
  rcases run_memory timing job metrics m time with ⟨ending, closing, hgiven⟩ | haccounts
  · exact (hgiven (data.insert key v)).log.trans (hsize ▸ (hgiven (data.insert key w)).log.symm)
  · have hv := (haccounts (data.insert key v)).log
    have hw := (haccounts (data.insert key w)).log
    simp only [turn]
    rw [hv, hw]
    simp only [Dictionary.entries_insert, List.map_append, List.map_cons, List.length_append,
      List.length_cons, Report.ofRecords_around, Memory.record, h.event, h.report]

/-! ## Entries that differ in a secret -/

variable {a b : Scalar}

/-- What becomes of an entry that holds a credential is told without what is redacted. -/
theorem toldAlike_of_redacted (m : Memory) {key v w : String} {kind : Credential.Kind}
    {c d : Credential} (hkind : Credential.Kind.ofKey? key = some kind)
    (hv : decode (Credential.decoder kind) v = .ok c)
    (hw : decode (Credential.decoder kind) w = .ok d) (h : c.redacted = d.redacted) :
    (m.outcomeOf key v).ToldAlike key (m.outcomeOf key w) := by
  have hmissing : c.missing = d.missing := by
    rw [← c.missing_redacted, h, d.missing_redacted]
  have hpath : c.path = d.path := by
    rw [← c.path_redacted, h, d.path_redacted]
  have hentity : c.entity = d.entity := by
    rw [← c.entity_redacted, h, d.entity_redacted]
  have hidentifier : c.identifier = d.identifier := by
    rw [← c.identifier_redacted, h, d.identifier_redacted]
  unfold Memory.outcomeOf Credential.parse
  simp only [hkind, hv, hw, hmissing]
  cases d.missing.isEmpty with
  | false => exact .rfl
  | true =>
    simp only [if_true, hpath]
    cases m.denial? d.path with
    | some failure => exact .rfl
    | none => exact ⟨by simp only [EntryOutcome.event, hentity, hidentifier],
        fun r => by simp only [Report.add]⟩

theorem event_malformed (key value : String) (kind : Credential.Kind) (fault : Fault) :
    (EntryOutcome.failed kind (.fault (.malformed value fault))).event key =
      { event .error .job s!"failed to parse {key} secret data: {fault.message value}" with
        fields := [("credential_type", kind.label), ("reason", "parse")] } := rfl

theorem outcomeOf_malformed (m : Memory) {key value : String} {kind : Credential.Kind}
    {fault : Fault} (hkind : Credential.Kind.ofKey? key = some kind)
    (hvalue : decode (Credential.decoder kind) value = .error fault) :
    m.outcomeOf key value = .failed kind (.fault (.malformed value fault)) := by
  simp only [Memory.outcomeOf, hkind, Credential.parse_of_undecoded hvalue]

/-- Of an entry with a fault only its message is told. -/
theorem toldAlike_of_message (m : Memory) {key v w : String} {kind : Credential.Kind} {f g : Fault}
    (hkind : Credential.Kind.ofKey? key = some kind)
    (hv : decode (Credential.decoder kind) v = .error f)
    (hw : decode (Credential.decoder kind) w = .error g) (h : f.message v = g.message w) :
    (m.outcomeOf key v).ToldAlike key (m.outcomeOf key w) := by
  rw [outcomeOf_malformed m hkind hv, outcomeOf_malformed m hkind hw]
  refine ⟨?_, fun r => by simp only [Report.add]⟩
  rw [event_malformed, event_malformed, h]

/-- What is shown of the credential in an entry, if it is accepted. -/
def shown? (kind : Credential.Kind) (value : String) : Option String :=
  (Credential.parse kind value).toOption.map Credential.describe

theorem shown?_of_redacted {kind : Credential.Kind} {v w : String} {c d : Credential}
    (hv : decode (Credential.decoder kind) v = .ok c)
    (hw : decode (Credential.decoder kind) w = .ok d) (h : c.redacted = d.redacted) :
    shown? kind v = shown? kind w := by
  have hmissing : c.missing = d.missing := by
    rw [← c.missing_redacted, h, d.missing_redacted]
  have hdescribe : c.describe = d.describe := by
    rw [← c.describe_redacted, h, d.describe_redacted]
  unfold shown? Credential.parse
  simp only [hv, hw, hmissing]
  cases d.missing.isEmpty with
  | false => rfl
  | true => exact congrArg some hdescribe

/-- **What is kept secret is not told, unless it is refused.** Take two entries of one key that are
the same object but for one literal, of the same sort and length, in a member that is not told of.
Either the cycles over them tell the same, and so does what is shown of their credentials. Or the
literal is not of the kind that is asked for where it stands, and both entries fail with a fault
that says what was found there. -/
theorem log_veiled (timing : Timing) (job : Job) (metrics : Metrics) (m : Memory)
    (data : Dictionary String) (time : Instant) (key : String) (slot : Slot)
    (hab : Interchangeable a b)
    (hshown : ∀ kind, Credential.Kind.ofKey? key = some kind →
      ∀ name, slot.members.key.name? = some name → name ∉ kind.shown) :
    let value (s : Scalar) := slot.fill (.scalar s)
    let turn (s : Scalar) :=
      run Memory.services timing job metrics (m.setSecret ⟨data.insert key (value s), time⟩)
    ((turn a).log = (turn b).log ∧ ∀ kind, Credential.Kind.ofKey? key = some kind →
      shown? kind (value a) = shown? kind (value b)) ∨
    ∃ kind expected rest, Credential.Kind.ofKey? key = some kind ∧
      ¬Credential.Fits kind slot.members a ∧
      ∀ s ∈ [a, b], m.outcomeOf key (value s) = .failed kind
        (.fault (.malformed (value s) (mismatch expected (s.text ++ rest)))) := by
  intro value turn
  cases hkind : Credential.Kind.ofKey? key with
  | none =>
    refine .inl ⟨log_congr timing job metrics m data time ?_, nofun⟩
    simp only [Memory.outcomeOf, hkind]
    exact .rfl
  | some kind =>
    cases Credential.decode_fill kind hab (hshown kind hkind) with
    | same c d h ha hb =>
      refine .inl ⟨log_congr timing job metrics m data time
        (toldAlike_of_redacted m hkind ha hb h), ?_⟩
      rintro _ ⟨⟩
      exact shown?_of_redacted ha hb h
    | faulty f g h ha hb =>
      obtain ⟨p, q, htext⟩ := slot.exists_text
      refine .inl ⟨log_congr timing job metrics m data time
        (toldAlike_of_message m hkind ha hb (Fault.message_eq hab h (htext a) (htext b))), ?_⟩
      rintro _ ⟨⟩
      simp only [value, shown?, Credential.parse_of_undecoded ha, Credential.parse_of_undecoded hb]
      rfl
    | quoted h expected rest ha hb =>
      refine .inr ⟨kind, expected, rest, rfl, h, ?_⟩
      intro s hs
      rcases List.mem_cons.mp hs with rfl | hs
      · exact outcomeOf_malformed m hkind ha
      · rw [List.mem_singleton.mp hs]
        exact outcomeOf_malformed m hkind hb

/-- A string of characters that stand for themselves. -/
def plainGlyphs (text : String) : List Glyph :=
  text.toList.filterMap fun c => if h : IsPlain c then some (.plain c h) else none

/-- A name without blanks around it. -/
def plainKey (name : String) : Key .object :=
  .member Blanks.none (plainGlyphs name) Blanks.none Blanks.none

/-- A service credential with a hole for its password. -/
def passwordSlot : Slot where
  ahead := Blanks.none
  members :=
    .later Blanks.none (plainKey "entityName") (.scalar (.string (plainGlyphs "o")))
      (.later Blanks.none (plainKey "credIndetifier") (.scalar (.string (plainGlyphs "p")))
        (.later Blanks.none (plainKey "userName") (.scalar (.string (plainGlyphs "u")))
          (.here Blanks.none (plainKey "password") .hole (.close Blanks.none))))
  behind := Blanks.none

/-- The cycle over a secret with this credential alone. -/
def passwordTurn (password : Scalar) : Turn Memory :=
  run Memory.services ⟨0, 0⟩ ⟨"sync", "default", "@daily", "secret", none⟩ Metrics.zero
    (Memory.empty.setSecret
      ⟨Dictionary.empty.insert "SERVICE-CRED-x" (passwordSlot.fill (.scalar password)), ⟨0, 0⟩⟩)

theorem log_veiled_strings :
    let first := Scalar.string (plainGlyphs "hush")
    let second := Scalar.string (plainGlyphs "word")
    let shownOf (s : Scalar) := shown? .service (passwordSlot.fill (.scalar s))
    Interchangeable first second ∧
      (∀ kind, Credential.Kind.ofKey? "SERVICE-CRED-x" = some kind →
        ∀ name, passwordSlot.members.key.name? = some name → name ∉ kind.shown) ∧
      (passwordTurn first).log = (passwordTurn second).log ∧ shownOf first = shownOf second := by
  intro first second shownOf
  have hab : Interchangeable first second :=
    .strings (s := "hush") (t := "word") (by decide) (by decide) (by decide)
  have hkey : Credential.Kind.ofKey? "SERVICE-CRED-x" = some .service := by decide
  have hname : passwordSlot.members.key.name? = some "password" := by decide
  have hshown : ∀ kind, Credential.Kind.ofKey? "SERVICE-CRED-x" = some kind →
      ∀ name, passwordSlot.members.key.name? = some name → name ∉ kind.shown := by
    intro kind hkind name hname'
    rw [hkey] at hkind
    rw [hname] at hname'
    cases hkind
    cases hname'
    decide
  refine ⟨hab, hshown, ?_⟩
  rcases log_veiled ⟨0, 0⟩ ⟨"sync", "default", "@daily", "secret", none⟩ Metrics.zero Memory.empty
      Dictionary.empty ⟨0, 0⟩ "SERVICE-CRED-x" passwordSlot hab hshown with
    ⟨hlog, hcredential⟩ | ⟨kind, expected, rest, hkind, hfits, -⟩
  · exact ⟨hlog, hcredential .service hkey⟩
  · rw [hkey] at hkind
    cases hkind
    refine absurd (fun name hname' => ?_) hfits
    rw [hname] at hname'
    cases hname'
    exact ⟨fun _ => trivial, fun h => absurd h (by decide)⟩

/-- A number for a password. -/
def firstPin : Numeral where
  negative := false
  whole := ⟨['1', '2', '3', '4', '5'], List.cons_ne_nil _ _, List.all_eq_true.mp rfl⟩
  canonical := by decide
  fraction := none
  exponent := none

/-- Another one of the same length. -/
def secondPin : Numeral where
  negative := false
  whole := ⟨['5', '4', '3', '2', '1'], List.cons_ne_nil _ _, List.all_eq_true.mp rfl⟩
  canonical := by decide
  fraction := none
  exponent := none

/-- **A password that is a number is told.** It is refused, since a password has to be a string, and
the cycle tells what was refused. -/
theorem log_quotes_password :
    let told (pin : Numeral) := (passwordTurn (.number pin)).log.map Event.message
    Interchangeable (.number firstPin) (.number secondPin) ∧
      passwordSlot.members.key.name? = some "password" ∧
      (told firstPin)[2]? = some ("failed to parse SERVICE-CRED-x secret data: " ++
        "invalid type: integer `12345`, expected a string at line 1 column 70") ∧
      (told secondPin)[2]? = some ("failed to parse SERVICE-CRED-x secret data: " ++
        "invalid type: integer `54321`, expected a string at line 1 column 70") ∧
      (passwordTurn (.number firstPin)).log ≠ (passwordTurn (.number secondPin)).log := by
  refine ⟨.numbers (by decide), by decide, ?_⟩
  decide +kernel

end Cycle

end CredentialRelay
