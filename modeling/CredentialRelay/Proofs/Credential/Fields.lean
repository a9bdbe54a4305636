import CredentialRelay.Credential.Decode
import CredentialRelay.Proofs.Json.Records

/-!
# The fields of a credential

The members of an entry that its kind knows are texts and attributes. A credential is made of what
they say, and a member that is left out says as much as one that is `null`.

* `Value.asText`, `Value.asAttributes`: what a value says as a text and as attributes.
* `Kind.texts`, `Kind.maps`: the members that a kind knows.
* `Kind.credential kind ms`: the credential that members make.

Results:
* `serviceShape_builds`, `certificateShape_builds`, `genericShape_builds`: the records are made of
  what their members say.
* `decode_members`: an entry is read exactly if its members are sound, for the credential that they
  make.
-/

namespace CredentialRelay

namespace Json

/-! ## What a member says -/

/-- What a value says as a text: a string says itself, and `null` the empty text. -/
def Value.asText : Value → Option String :=
  Value.orNull "" Value.string?

/-- The members of an object whose values are strings, with their names. -/
def Members.texts? (ms : Members) : Option (List (String × String)) :=
  ms.mapM fun member => member.1.bind fun name => member.2.string?.map fun text => (name, text)

/-- What a value says as attributes: an object says its strings with their names, in their order,
and `null` says none. -/
def Value.asAttributes : Value → Option (List (String × String)) :=
  Value.orNull [] fun v => v.object?.bind Members.texts?

/-- The text of a member, empty if it is absent or `null`. -/
def Members.text (ms : Members) (name : String) : String :=
  ms.getD name Value.asText ""

/-- The attributes of a member in their order, none if it is absent or `null`. -/
def Members.attributes (ms : Members) (name : String) : List (String × String) :=
  ms.getD name Value.asAttributes []

theorem Members.getD_map {α β : Type} (ms : Members) (name : String) (meaning : Value → Option α)
    (f : α → β) (default : α) :
    ms.getD name (fun v => (meaning v).map f) (f default) = f (ms.getD name meaning default) := by
  unfold getD
  cases ms.lookup (some name) with
  | none => rfl
  | some v => cases hv : meaning v <;> simp [hv]

/-- Attributes are inserted in the order in which they are given. -/
theorem Members.run_insert (ms : Members) (d : Attributes) :
    ms.run (fun d name v => v.string?.map (d.insert name)) d =
      ms.texts?.map fun texts => texts.foldl (fun d entry => d.insert entry.1 entry.2) d := by
  induction ms generalizing d with
  | nil => rfl
  | cons member ms ih =>
    obtain ⟨_ | name, v⟩ := member
    · rfl
    · rw [run_named, texts?, List.mapM_cons]
      cases v.string? with
      | none => rfl
      | some text =>
        simp only [Option.map_some, Option.bind_some, ih, texts?]
        cases List.mapM (m := Option) _ ms <;> rfl

end Json

namespace Credential

open Json

/-! ## Fields -/

section

variable {σ : Type} {takes : String → Value → Bool} {record : σ → Members → σ} {name : String}

theorem textField_fills {set : σ → String → σ} (htakes : ∀ v, takes name v = v.asText.isSome)
    (hset : ∀ s v t ms, v.asText = some t → some name ∉ ms.map Prod.fst →
      record s ((some name, v) :: ms) = record (set s t) ms) :
    Shape.Fills takes record (textField name set) := by
  refine ⟨fun s v => v.asText.map (set s), fun s => (orDefault_means text_means "").map (set s),
    fun s v => ?_, fun s v t ms hv hms => ?_⟩
  · rw [Option.isSome_map]
    exact (htakes v).symm
  · obtain ⟨text, htext, rfl⟩ := Option.map_eq_some_iff.mp hv
    exact hset s v text ms htext hms

/-- What an object is read for is what it says. -/
theorem attributes_means :
    Means (orDefault Dictionary.empty (dictionary Dictionary.insert Dictionary.empty text))
      fun v => v.asAttributes.map Dictionary.ofList := by
  have hsame : (fun v : Value => v.asAttributes.map Dictionary.ofList) =
      Value.orNull Dictionary.empty fun v => v.object?.bind fun ms =>
        ms.run (fun d name v => v.string?.map (d.insert name)) Dictionary.empty := by
    funext v
    unfold Value.asAttributes Value.orNull
    split
    · rfl
    · show (v.object?.bind Members.texts?).map Dictionary.ofList = v.object?.bind _
      cases v.object? with
      | none => rfl
      | some ms => exact (ms.run_insert Dictionary.empty).symm
  rw [hsame]
  exact orDefault_means (dictionary_means text_means Dictionary.insert Dictionary.empty)
    Dictionary.empty

theorem attributesField_fills {set : σ → Attributes → σ}
    (htakes : ∀ v, takes name v = v.asAttributes.isSome)
    (hset : ∀ s v t ms, v.asAttributes = some t → some name ∉ ms.map Prod.fst →
      record s ((some name, v) :: ms) = record (set s (Dictionary.ofList t)) ms) :
    Shape.Fills takes record (attributesField name set) := by
  refine ⟨fun s v => (v.asAttributes.map Dictionary.ofList).map (set s),
    fun s => attributes_means.map (set s), fun s v => ?_, fun s v t ms hv hms => ?_⟩
  · rw [Option.isSome_map, Option.isSome_map]
    exact (htakes v).symm
  · obtain ⟨read, hread, rfl⟩ := Option.map_eq_some_iff.mp hv
    obtain ⟨texts, htexts, rfl⟩ := Option.map_eq_some_iff.mp hread
    exact hset s v texts ms htexts hms

end

/-! ## The members of each kind -/

namespace Kind

/-- The members that are texts. -/
def texts : Kind → List String
  | .service => ["entityName", "credIndetifier", "userName", "password"]
  | .certificate => ["entityName", "certIndetifier", "caCert", "key", "cert"]
  | .generic => ["credentialType", "entityName", "credIndetifier"]

/-- The members that are attributes. -/
def maps : Kind → List String
  | .service => ["additionalData"]
  | .certificate => []
  | .generic => ["credential"]

/-- The members that are known. -/
def names (kind : Kind) : List String :=
  kind.texts ++ kind.maps

/-- Whether a value is taken for a member. -/
def takes (kind : Kind) (name : String) (v : Value) : Bool :=
  if name ∈ kind.maps then v.asAttributes.isSome else v.asText.isSome

end Kind

/-- The attributes of a member, or others if it is absent. -/
def attributesOr (ms : Members) (name : String) (default : Attributes) : Attributes :=
  ms.getD name (fun v => v.asAttributes.map Dictionary.ofList) default

/-- A service credential with what members say of it. -/
def serviceOf (c : ServiceCredential) (ms : Members) : ServiceCredential where
  entity := ms.getD "entityName" Value.asText c.entity
  identifier := ms.getD "credIndetifier" Value.asText c.identifier
  userName := ms.getD "userName" Value.asText c.userName
  password := ms.getD "password" Value.asText c.password
  additional := attributesOr ms "additionalData" c.additional

/-- A certificate with what members say of it. -/
def certificateOf (c : CertificateCredential) (ms : Members) : CertificateCredential where
  entity := ms.getD "entityName" Value.asText c.entity
  identifier := ms.getD "certIndetifier" Value.asText c.identifier
  authority := ms.getD "caCert" Value.asText c.authority
  key := ms.getD "key" Value.asText c.key
  certificate := ms.getD "cert" Value.asText c.certificate

/-- A generic credential with what members say of it. -/
def genericOf (c : GenericCredential) (ms : Members) : GenericCredential where
  type := ms.getD "credentialType" Value.asText c.type
  entity := ms.getD "entityName" Value.asText c.entity
  identifier := ms.getD "credIndetifier" Value.asText c.identifier
  attributes := attributesOr ms "credential" c.attributes

theorem serviceShape_builds : serviceShape.Builds Kind.service.takes serviceOf where
  unique := rfl
  required := nofun
  start _ := rfl
  passed s name v ms hname := by
    simp [Shape.names, serviceShape, textField, attributesField] at hname
    simp [serviceOf, attributesOr, Members.getD_cons, hname]
  fills := by
    simp only [serviceShape, List.forall_mem_cons]
    refine ⟨textField_fills (fun _ => rfl) ?_, textField_fills (fun _ => rfl) ?_,
      textField_fills (fun _ => rfl) ?_, textField_fills (fun _ => rfl) ?_,
      attributesField_fills (fun _ => rfl) ?_, List.forall_mem_nil _⟩ <;>
    · intro s v t ms hv hms
      simp [serviceOf, attributesOr, Members.getD_cons, Members.getD_absent hms, hv]

theorem certificateShape_builds : certificateShape.Builds Kind.certificate.takes certificateOf where
  unique := rfl
  required := nofun
  start _ := rfl
  passed s name v ms hname := by
    simp [Shape.names, certificateShape, textField] at hname
    simp [certificateOf, Members.getD_cons, hname]
  fills := by
    simp only [certificateShape, List.forall_mem_cons]
    refine ⟨textField_fills (fun _ => rfl) ?_, textField_fills (fun _ => rfl) ?_,
      textField_fills (fun _ => rfl) ?_, textField_fills (fun _ => rfl) ?_,
      textField_fills (fun _ => rfl) ?_, List.forall_mem_nil _⟩ <;>
    · intro s v t ms hv hms
      simp [certificateOf, Members.getD_cons, Members.getD_absent hms, hv]

theorem genericShape_builds : genericShape.Builds Kind.generic.takes genericOf where
  unique := rfl
  required := nofun
  start _ := rfl
  passed s name v ms hname := by
    simp [Shape.names, genericShape, textField, attributesField] at hname
    simp [genericOf, attributesOr, Members.getD_cons, hname]
  fills := by
    simp only [genericShape, List.forall_mem_cons]
    refine ⟨textField_fills (fun _ => rfl) ?_, textField_fills (fun _ => rfl) ?_,
      textField_fills (fun _ => rfl) ?_, attributesField_fills (fun _ => rfl) ?_,
      List.forall_mem_nil _⟩ <;>
    · intro s v t ms hv hms
      simp [genericOf, attributesOr, Members.getD_cons, Members.getD_absent hms, hv]

/-- The credential that members make. -/
def Kind.credential : Kind → Members → Credential
  | .service, ms => .service (serviceOf ⟨"", "", "", "", Dictionary.empty⟩ ms)
  | .certificate, ms => .certificate (certificateOf ⟨"", "", "", "", ""⟩ ms)
  | .generic, ms => .generic (genericOf ⟨"", "", "", Dictionary.empty⟩ ms)

/-- **An entry is read exactly if its members are sound**, for the credential that they make. -/
theorem decode_members (kind : Kind) (d : Document) :
    (d.members.Sound kind.names kind.takes [] →
      decode (decoder kind) d.text = .ok (kind.credential d.members)) ∧
    (¬d.members.Sound kind.names kind.takes [] →
      ∃ fault, decode (decoder kind) d.text = .error fault) :=
  match kind with
  | .service => serviceShape_builds.decode_document rfl _ Credential.service d
  | .certificate => certificateShape_builds.decode_document rfl _ Credential.certificate d
  | .generic => genericShape_builds.decode_document rfl _ Credential.generic d

end Credential

end CredentialRelay
