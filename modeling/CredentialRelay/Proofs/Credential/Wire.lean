import CredentialRelay.Proofs.Credential.Fields
import CredentialRelay.Proofs.Credential.Filled
import CredentialRelay.Proofs.Cycle.Secrecy

/-!
# How a credential is written

What becomes of an entry that is one object is told by its members alone. It is malformed if a name
says nothing, a member that the kind knows is repeated, or one has a value that is not of its form.
Otherwise it is incomplete if a required member is absent, `null` or empty, and else it holds the
credential that the members say. So neither the order of the members, nor members that are `null`,
nor those of other names make a difference to a credential.

* `Kind.required`: the members that may not be empty, in the order in which they are reported.
* `Malformed kind ms`: members that a credential cannot be read from.
* `Says kind ms c`: a credential has what the members say.
* `Edited kind ms ms'`: members that differ in what makes no difference.

Results:
* `credential_says`: the credential that members make has what they say.
* `Edited.keeps`, `Keeps.credential`: what makes no difference to the members makes none to the
  credential.
* `parse_document`: what becomes of an entry.
-/

namespace CredentialRelay.Credential

open Json

variable {kind : Kind} {ms ms' : Members}

/-! ## Malformed entries -/

/-- Members that a credential cannot be read from. -/
inductive Malformed (kind : Kind) (ms : Members) : Prop where
  /-- A name says nothing, since half of a surrogate pair lacks the other. -/
  | unnamed {v : Value} (h : (none, v) ∈ ms)
  /-- A known member is repeated. -/
  | repeated {name : String} (hname : name ∈ kind.names)
      (h : 1 < (ms.map Prod.fst).count (some name))
  /-- A text is neither a string nor `null`. -/
  | text {name : String} {v : Value} (hname : name ∈ kind.texts) (h : (some name, v) ∈ ms)
      (hv : v.asText = none)
  /-- Attributes are neither an object whose values are strings nor `null`. -/
  | attributes {name : String} {v : Value} (hname : name ∈ kind.maps) (h : (some name, v) ∈ ms)
      (hv : v.asAttributes = none)

theorem Kind.not_mem_maps (kind : Kind) : ∀ name ∈ kind.texts, name ∉ kind.maps := by
  cases kind <;> decide

/-- Members that are not malformed are sound. -/
theorem sound_iff : ms.Sound kind.names kind.takes [] ↔ ¬Malformed kind ms := by
  constructor
  · rintro ⟨hnamed, hdistinct, htaken⟩ h
    cases h with
    | unnamed h => exact hnamed _ h
    | repeated hname h =>
      have := hdistinct _ hname
      omega
    | text hname h hv =>
      have := htaken _ (List.mem_append_left _ hname) _ h
      rw [Kind.takes, if_neg (kind.not_mem_maps _ hname), hv] at this
      cases this
    | attributes hname h hv =>
      have := htaken _ (List.mem_append_right _ hname) _ h
      rw [Kind.takes, if_pos hname, hv] at this
      cases this
  · intro h
    refine ⟨fun v hv => h (.unnamed hv), fun name hname => ?_, fun name hname v hv => ?_⟩
    · rw [List.count_nil, Nat.zero_add]
      exact Nat.le_of_not_lt fun hcount => h (.repeated hname hcount)
    · unfold Kind.takes
      split
      · next hmap => exact Option.isSome_iff_ne_none.mpr fun hnone => h (.attributes hmap hv hnone)
      · next hmap =>
        have htext := (List.mem_append.mp hname).resolve_right hmap
        exact Option.isSome_iff_ne_none.mpr fun hnone => h (.text htext hv hnone)

/-! ## What the members say -/

namespace Kind

/-- The members that may not be empty, in the order in which they are reported. -/
def required : Kind → List String
  | .service => ["userName", "password", "entityName"]
  | .certificate => ["caCert", "cert", "key", "entityName", "certIndetifier"]
  | .generic => ["entityName", "credIndetifier", "credentialType"]

/-- The member that tells apart the credentials of one entity. -/
def identifierName : Kind → String
  | .certificate => "certIndetifier"
  | _ => "credIndetifier"

/-- The first segment of the path. -/
def typeSegment : Kind → Members → String
  | .generic, ms => ms.text "credentialType"
  | kind, _ => kind.pathSegment

/-- The attribute of a name that is stored. Of two with one name the later one counts, and further
attributes count before a user name and a password. -/
def attribute? : Kind → Members → String → Option String
  | .service, ms, name => ((ms.attributes "additionalData").reverse.lookup name).or
    ([("userName", ms.text "userName"), ("password", ms.text "password")].lookup name)
  | .certificate, ms, name => [("ca.pem", ms.text "caCert"), ("cert.crt", ms.text "cert"),
    ("key.key", ms.text "key")].lookup name
  | .generic, ms, name => (ms.attributes "credential").reverse.lookup name

end Kind

/-- A credential has what members say. -/
structure Says (kind : Kind) (ms : Members) (c : Credential) : Prop where
  entity : c.entity = ms.text "entityName"
  identifier : c.identifier = ms.text kind.identifierName
  path : c.path =
    kind.typeSegment ms ++ "/" ++ ms.text "entityName" ++ "/" ++ ms.text kind.identifierName
  attributes : ∀ name, c.attributes.get? name = kind.attribute? ms name

theorem attributesOr_empty (ms : Members) (name : String) :
    attributesOr ms name Dictionary.empty = Dictionary.ofList (ms.attributes name) :=
  ms.getD_map name Value.asAttributes Dictionary.ofList []

/-- **The credential that members make** has what they say. -/
theorem credential_says (kind : Kind) (ms : Members) : Says kind ms (kind.credential ms) := by
  cases kind with
  | service =>
    refine ⟨rfl, rfl, rfl, fun name => ?_⟩
    rw [Kind.credential, get?_service, serviceOf, attributesOr_empty, Dictionary.get?_ofList]
    congr 1
    by_cases hpassword : name = "password"
    · subst hpassword
      rfl
    · by_cases huser : name = "userName"
      · subst huser
        rfl
      · rw [if_neg hpassword, if_neg huser]
        simp [List.lookup_cons, beq_false_of_ne hpassword, beq_false_of_ne huser]
  | certificate =>
    refine ⟨rfl, rfl, rfl, fun name => ?_⟩
    rw [Dictionary.get?, Kind.credential, entries_certificate]
    rfl
  | generic =>
    refine ⟨rfl, rfl, rfl, fun name => ?_⟩
    show (attributesOr ms "credential" Dictionary.empty).get? name = _
    rw [attributesOr_empty, Dictionary.get?_ofList]
    rfl

/-- What is missing of the credential that members make. -/
theorem missing_credential (kind : Kind) (ms : Members) :
    (kind.credential ms).missing = kind.required.filter fun name => ms.text name == "" := by
  have hrequired : (kind.credential ms).required =
      kind.required.map fun name => (name, ms.text name) := by
    cases kind <;> rfl
  have hempty (text : String) : text.isEmpty = (text == "") := by
    rw [Bool.eq_iff_iff, String.isEmpty_iff, beq_iff_eq]
  simp only [missing, hrequired, List.filter_map, List.map_map, hempty]
  exact List.map_id _

/-! ## What makes no difference -/

/-- Members that differ in what makes no difference: their order, a member that is `null` or absent,
and members that are not known. -/
inductive Edited (kind : Kind) : Members → Members → Prop
  | reorder {ms ms' : Members} (h : ms.Perm ms') : Edited kind ms ms'
  | drop (before after : Members) (name : String) :
    Edited kind (before ++ (some name, .scalar .null) :: after) (before ++ after)
  | add (before after : Members) {name : String} (hname : name ∉ kind.names) (v : Value) :
    Edited kind (before ++ after) (before ++ (some name, v) :: after)
  | trans {ms ms' ms'' : Members} (h : Edited kind ms ms') (h' : Edited kind ms' ms'') :
    Edited kind ms ms''

/-- Of the members that are known, those that are not `null` are kept, and no others are added. -/
structure Keeps (kind : Kind) (ms ms' : Members) : Prop where
  named : ∀ v, (none, v) ∈ ms' → (none, v) ∈ ms
  distinct : ∀ name ∈ kind.names,
    (ms'.map Prod.fst).count (some name) ≤ (ms.map Prod.fst).count (some name)
  known : ∀ name ∈ kind.names, ∀ v, (some name, v) ∈ ms' → (some name, v) ∈ ms
  kept : ∀ name ∈ kind.names, ∀ v, v ≠ .scalar .null → (some name, v) ∈ ms → (some name, v) ∈ ms'

theorem mem_of_mem_around {before after : Members} {m other : Option String × Value}
    (h : m ∈ before ++ other :: after) (hne : m ≠ other) : m ∈ before ++ after := by
  rcases List.mem_append.mp h with h | h
  · exact List.mem_append_left _ h
  · exact List.mem_append_right _ (List.mem_of_ne_of_mem hne h)

theorem Edited.keeps (h : Edited kind ms ms') : Keeps kind ms ms' := by
  induction h with
  | reorder h =>
    exact ⟨fun v hv => h.mem_iff.mpr hv, fun name _ => Nat.le_of_eq ((h.map _).count_eq _).symm,
      fun name _ v hv => h.mem_iff.mpr hv, fun name _ v _ hv => h.mem_iff.mp hv⟩
  | drop before after name =>
    have hsub : (before ++ after).Sublist (before ++ (some name, .scalar .null) :: after) :=
      (List.sublist_cons_self _ after).append_left before
    refine ⟨fun v hv => hsub.subset hv, fun other _ => (hsub.map _).count_le _,
      fun other _ v hv => hsub.subset hv, fun other _ v hnull hv => mem_of_mem_around hv ?_⟩
    rintro ⟨⟩
    exact hnull rfl
  | @add before after name hname v =>
    have hsub : (before ++ after).Sublist (before ++ (some name, v) :: after) :=
      (List.sublist_cons_self _ after).append_left before
    have hne : ∀ other ∈ kind.names, other ≠ name := fun other hother hsame =>
      hname (hsame ▸ hother)
    refine ⟨fun w hw => mem_of_mem_around hw nofun, fun other hother => Nat.le_of_eq ?_,
      fun other hother w hw => mem_of_mem_around hw ?_, fun other _ w _ hw => hsub.subset hw⟩
    · rw [List.map_append, List.map_append, List.count_append, List.count_append,
        Members.count_cons, if_neg (hne other hother).symm, Nat.add_zero]
    · rintro ⟨⟩
      exact hname hother
  | trans _ _ ih ih' =>
    exact ⟨fun v hv => ih.named v (ih'.named v hv),
      fun name hname => Nat.le_trans (ih'.distinct name hname) (ih.distinct name hname),
      fun name hname v hv => ih.known name hname v (ih'.known name hname v hv),
      fun name hname v hnull hv => ih'.kept name hname v hnull (ih.kept name hname v hnull hv)⟩

theorem Keeps.sound (h : Keeps kind ms ms') (hsound : ms.Sound kind.names kind.takes []) :
    ms'.Sound kind.names kind.takes [] where
  named v hv := hsound.named v (h.named v hv)
  distinct name hname := Nat.le_trans (Nat.add_le_add_left (h.distinct name hname) _)
    (hsound.distinct name hname)
  taken name hname v hv := hsound.taken name hname v (h.known name hname v hv)

/-- What a known member means is kept. -/
theorem Keeps.getD {α : Type} (h : Keeps kind ms ms') (hsound : ms.Sound kind.names kind.takes [])
    {name : String} (hname : name ∈ kind.names) {meaning : Value → Option α} {default : α}
    (hnull : meaning (.scalar .null) = some default) :
    ms'.getD name meaning default = ms.getD name meaning default := by
  have hcount {ms : Members} (hsound : ms.Sound kind.names kind.takes []) :
      (ms.map Prod.fst).count (some name) ≤ 1 := by
    have := hsound.distinct name hname
    rwa [List.count_nil, Nat.zero_add] at this
  by_cases hvalue : ∃ v, v ≠ .scalar .null ∧ (some name, v) ∈ ms
  · obtain ⟨v, hv, hmem⟩ := hvalue
    rw [Members.getD_of_mem (hcount (h.sound hsound)) (h.kept name hname v hv hmem),
      Members.getD_of_mem (hcount hsound) hmem]
  · have hnone : ∀ v, (some name, v) ∈ ms → v = .scalar .null := fun v hv =>
      Classical.byContradiction fun hne => hvalue ⟨v, hne, hv⟩
    rw [Members.getD_of_null hnone hnull,
      Members.getD_of_null (fun v hv => hnone v (h.known name hname v hv)) hnull]

/-- **What makes no difference to the members** makes none to the credential that they make. -/
theorem Keeps.credential (h : Keeps kind ms ms') (hsound : ms.Sound kind.names kind.takes []) :
    kind.credential ms' = kind.credential ms := by
  have htext : ∀ name ∈ kind.names,
      ms'.getD name Value.asText "" = ms.getD name Value.asText "" :=
    fun name hname => h.getD hsound hname rfl
  have hattributes : ∀ name ∈ kind.names, attributesOr ms' name Dictionary.empty =
      attributesOr ms name Dictionary.empty :=
    fun name hname => h.getD hsound hname rfl
  cases kind <;>
  · simp only [Kind.names, Kind.texts, Kind.maps, List.cons_append, List.nil_append,
      List.forall_mem_cons] at htext hattributes
    simp [Kind.credential, serviceOf, certificateOf, genericOf, htext, hattributes]

/-! ## Entries -/

theorem parse_malformed {d : Document} (h : Malformed kind d.members) :
    ∃ fault, parse kind d.text = .error (.malformed d.text fault) := by
  obtain ⟨fault, hdecode⟩ := (decode_members kind d).2 fun hsound => sound_iff.mp hsound h
  exact ⟨fault, by rw [parse, hdecode]⟩

theorem parse_wellFormed {d : Document} (h : ¬Malformed kind d.members) :
    parse kind d.text =
      if (kind.credential d.members).missing.isEmpty then .ok (kind.credential d.members)
      else .error (.incomplete (kind.credential d.members).missing) := by
  rw [parse, (decode_members kind d).1 (sound_iff.mpr h)]

/-- **What becomes of an entry** that is one object is told by its members: it is malformed, or else
lacks exactly the required members that are absent, `null` or empty, or else it holds the credential
that they say. The order of its members, those that are `null`, and those that are not known make no
difference to a credential. -/
theorem parse_document (kind : Kind) (d : Document) :
    let ms := d.members
    let missing := kind.required.filter fun name => ms.text name == ""
    (Malformed kind ms ↔ ∃ fault, parse kind d.text = .error (.malformed d.text fault)) ∧
    (¬Malformed kind ms → missing ≠ [] → parse kind d.text = .error (.incomplete missing)) ∧
    (¬Malformed kind ms → missing = [] → ∃ c, parse kind d.text = .ok c ∧ Says kind ms c) ∧
    ∀ (d' : Document) (c : Credential), Edited kind ms d'.members →
      parse kind d.text = .ok c → parse kind d'.text = .ok c := by
  intro ms missing
  have hmissing : (kind.credential ms).missing = missing := missing_credential kind ms
  refine ⟨⟨parse_malformed, ?_⟩, fun h hne => ?_, fun h hnone => ?_, fun d' c hedited hparse => ?_⟩
  · rintro ⟨fault, hparse⟩
    refine Classical.byContradiction fun h => ?_
    rw [parse_wellFormed h] at hparse
    split at hparse <;> cases hparse
  · rw [parse_wellFormed h, hmissing, if_neg (by simpa using hne)]
  · refine ⟨kind.credential ms, ?_, credential_says kind ms⟩
    rw [parse_wellFormed h, hmissing, hnone]
    rfl
  · have h : ¬Malformed kind ms := by
      intro hmalformed
      obtain ⟨fault, hfault⟩ := parse_malformed hmalformed
      rw [hfault] at hparse
      cases hparse
    have hkeeps := hedited.keeps
    have hsound := sound_iff.mpr h
    rw [parse_wellFormed (sound_iff.mp (hkeeps.sound hsound)), hkeeps.credential hsound,
      ← parse_wellFormed h]
    exact hparse

/-- A service credential. -/
def plainDocument : Document where
  ahead := Cycle.passwordSlot.ahead
  items := Cycle.passwordSlot.members.fill (.scalar (.string (Cycle.plainGlyphs "hush")))
  behind := Cycle.passwordSlot.behind

/-- The same behind a member that is not known. -/
def notedDocument : Document :=
  { plainDocument with
    items := .item Blanks.none (Cycle.plainKey "note") (.bracketed .list (.close Blanks.none))
      plainDocument.items }

theorem parse_document_noted :
    let c := service ⟨"o", "p", "u", "hush", Dictionary.empty⟩
    notedDocument.members.length = 5 ∧ Edited .service plainDocument.members notedDocument.members ∧
      parse .service plainDocument.text = .ok c ∧ parse .service notedDocument.text = .ok c := by
  intro c
  have hedited : Edited .service plainDocument.members notedDocument.members :=
    .add [] plainDocument.members (by decide : "note" ∉ Kind.service.names) _
  have hparse : parse .service plainDocument.text = .ok c := by decide
  exact ⟨by decide, hedited, hparse,
    (parse_document .service plainDocument).2.2.2 notedDocument c hedited hparse⟩

end CredentialRelay.Credential
