import CredentialRelay.Credential.Decode
import CredentialRelay.Proofs.Dictionary
import CredentialRelay.Proofs.Json.Veil

/-!
# What is kept secret of a credential

A credential is redacted by taking away what it holds and leaving whom it belongs to. All that is
told of a credential is told of the redacted one too: its description, its path and the fields that
it lacks.

Two entries that are the same object but for one literal, which stands for something that is kept
secret or in it, hold credentials that are the same once redacted. Else they are malformed in the
same way, unless the literal itself is refused: a password has to be a string, and attributes have
to be strings with names. The fault then says what was found in their place.

* `Credential.redacted`: a credential without what it holds.
* `Kind.shown`, `Kind.secretTexts`, `Kind.secretAttributes`: the members that are told of, and those
  that are not.
* `Slot.Fits`: whether a literal in a place is not refused.

Results:
* `describe_redacted`, `missing_redacted`, `path_redacted`: what is told of a redacted credential.
* `decode_fill`: the credentials in two entries that differ in one literal.
-/

namespace CredentialRelay

/-- Nothing of a text but whether it is empty. -/
def redactedText (text : String) : String :=
  if text.isEmpty then "" else "*"

/-- The names of attributes. -/
def redactedAttributes (attributes : Attributes) : Attributes :=
  attributes.mapValues fun _ => "*"

theorem isEmpty_redactedText (text : String) : (redactedText text).isEmpty = text.isEmpty := by
  unfold redactedText
  cases text.isEmpty <;> rfl

namespace Credential

open Json

def redactedService (c : ServiceCredential) : ServiceCredential :=
  { c with password := redactedText c.password, additional := redactedAttributes c.additional }

def redactedCertificate (c : CertificateCredential) : CertificateCredential :=
  { c with
    authority := redactedText c.authority
    key := redactedText c.key
    certificate := redactedText c.certificate }

def redactedGeneric (c : GenericCredential) : GenericCredential :=
  { c with attributes := redactedAttributes c.attributes }

/-- A credential without what it holds. -/
def redacted : Credential → Credential
  | .service c => .service (redactedService c)
  | .certificate c => .certificate (redactedCertificate c)
  | .generic c => .generic (redactedGeneric c)

theorem describe_redacted (c : Credential) : c.redacted.describe = c.describe := by
  cases c <;> simp only [redacted, describe, redactedService, redactedCertificate, redactedGeneric,
    redactedAttributes, Dictionary.keys_mapValues]

/-- Which fields are missing is told by which are empty. -/
theorem missing_eq (c : Credential) :
    c.missing =
      ((c.required.map fun field => (field.1, field.2.isEmpty)).filter Prod.snd).map Prod.fst := by
  rw [missing, List.filter_map, List.map_map]
  rfl

theorem missing_redacted (c : Credential) : c.redacted.missing = c.missing := by
  rw [missing_eq, missing_eq]
  cases c <;> simp only [redacted, required, redactedService, redactedCertificate, redactedGeneric,
    List.map_cons, List.map_nil, isEmpty_redactedText]

theorem entity_redacted (c : Credential) : c.redacted.entity = c.entity := by
  cases c <;> rfl

theorem identifier_redacted (c : Credential) : c.redacted.identifier = c.identifier := by
  cases c <;> rfl

theorem path_redacted (c : Credential) : c.redacted.path = c.path := by
  cases c <;> rfl

/-! ## Reading in step -/

/-- The members that are told of. -/
def Kind.shown : Kind → List String
  | .service => ["entityName", "credIndetifier", "userName"]
  | .certificate => ["entityName", "certIndetifier"]
  | .generic => ["credentialType", "entityName", "credIndetifier"]

/-- The texts that are kept secret. -/
def Kind.secretTexts : Kind → List String
  | .service => ["password"]
  | .certificate => ["caCert", "key", "cert"]
  | .generic => []

/-- The attributes that are kept secret. -/
def Kind.secretAttributes : Kind → List String
  | .service => ["additionalData"]
  | .certificate => []
  | .generic => ["credential"]

end Credential

/-- Whether a literal in the hole of an object is not refused: it is no text or attribute that is
kept secret, or of the kind that is asked for there. -/
def Credential.Fits (kind : Credential.Kind) (c : Json.ItemsContext .object) (s : Json.Scalar) :
    Prop :=
  ∀ name, c.key.name? = some name →
    (name ∈ kind.secretTexts → c.value.FitsText s) ∧
      (name ∈ kind.secretAttributes → c.value.FitsTexts s)

namespace Credential

open Json

section Fields

variable {σ : Type} {R : σ → σ → Prop} {a b : Scalar} {P : Prop}

/-- A field that is told of, or that keeps related what differs in a secret only. -/
inductive Veiled (kind : Kind) (R : σ → σ → Prop) : Member σ → Prop where
  | shown (name : String) (set : σ → String → σ) (h : name ∈ kind.shown)
      (hset : ∀ s t v, R s t → R (set s v) (set t v)) : Veiled kind R (textField name set)
  | text (name : String) (set : σ → String → σ) (h : name ∈ kind.secretTexts)
      (hset : ∀ s t v w, R s t → redactedText v = redactedText w → R (set s v) (set t w)) :
      Veiled kind R (textField name set)
  | attributes (name : String) (set : σ → Attributes → σ) (h : name ∈ kind.secretAttributes)
      (hset : ∀ s t d e, R s t → redactedAttributes d = redactedAttributes e →
        R (set s d) (set t e)) : Veiled kind R (attributesField name set)

theorem Veiled.settles {kind : Kind} {field : Member σ} (h : Veiled kind R field) (s : σ) :
    SettlesValues (field.read s) := by
  have htext (name : String) (set : σ → String → σ) :
      SettlesValues ((textField name set).read s) :=
    ((orDefault_means text_means "").map (set s)).settles
  cases h with
  | shown name set => exact htext name set
  | text name set => exact htext name set
  | attributes name set =>
    exact ((orDefault_means (dictionary_means text_means Dictionary.insert Dictionary.empty)
      Dictionary.empty).map (set s)).settles

/-- One value that is read into two records. -/
theorem twins_of_same {α : Type} (x : Outcome α) {f g : α → σ} (h : ∀ v, R (f v) (g v)) :
    Twins a b P R (x.map fun (v, rest) => (f v, rest)) (x.map fun (v, rest) => (g v, rest)) := by
  cases x with
  | error fault => exact .error .rfl
  | ok read => exact .ok (h read.1) read.2

theorem Veiled.keeps {kind : Kind} {field : Member σ} (h : Veiled kind R field) {s t : σ}
    (hst : R s t) (cs : List Char) : Twins a b P R (field.read s cs) (field.read t cs) := by
  cases h with
  | shown name set _ hset => exact twins_of_same _ fun v => hset s t v hst
  | text name set _ hset => exact twins_of_same _ fun v => hset s t v v hst rfl
  | attributes name set _ hset => exact twins_of_same _ fun d => hset s t d d hst rfl

/-- Attributes are read in step, unless a literal is refused. -/
theorem attributes_fill (hab : Interchangeable a b) (c : Context) (gap : Blanks) (r : List Char) :
    Twins a b (¬c.FitsTexts a) (fun d e => redactedAttributes d = redactedAttributes e)
      (dictionary Dictionary.insert Dictionary.empty text
        (gap.1 ++ ((c.fill (.scalar a)).text ++ r)))
      (dictionary Dictionary.insert Dictionary.empty text
        (gap.1 ++ ((c.fill (.scalar b)).text ++ r))) := by
  have hinsert (d : Attributes) (key value : String) :
      redactedAttributes (d.insert key value) = (redactedAttributes d).insert key "*" :=
    Dictionary.mapValues_insert _ d key value
  refine dictionary_fill hab (fun d e key v h => ?_) (fun d key v w _ => ?_) _ c gap r
  · rw [hinsert, hinsert, h]
  · rw [hinsert, hinsert]

/-- **A field that is not told of is read in step**, unless the literal is refused. -/
theorem Veiled.fill {kind : Kind} {field : Member σ} (h : Veiled kind R field)
    (hab : Interchangeable a b) {c : ItemsContext .object} (hname : c.key.name? = some field.name)
    (hshown : field.name ∉ kind.shown) (hrefl : ∀ s, R s s) (s : σ) (gap : Blanks)
    (r : List Char) :
    Twins a b (¬Fits kind c a) R
      (field.read s (gap.1 ++ ((c.value.fill (.scalar a)).text ++ r)))
      (field.read s (gap.1 ++ ((c.value.fill (.scalar b)).text ++ r))) := by
  cases h with
  | shown name set hmem => exact absurd hmem hshown
  | text name set hsecret hset =>
    have hread := orDefault_fill hab "" c.value gap r (text_fill hab c.value Blanks.none r)
    refine (hread.map fun v w hvw => ?_).mono fun hrefused hfits =>
      hrefused ((hfits name hname).1 hsecret)
    exact hset s s v w (hrefl s) (congrArg (fun e => if e = true then "" else "*") hvw)
  | attributes name set hsecret hset =>
    have hread := orDefault_fill hab Dictionary.empty c.value gap r
      (attributes_fill hab c.value Blanks.none r)
    exact (hread.map fun d e hde => hset s s d e (hrefl s) hde).mono fun hrefused hfits =>
      hrefused ((hfits name hname).2 hsecret)

/-- **A record is read in step** of which all fields are told of or veiled. -/
theorem shape_fill {shape : Shape σ} {kind : Kind}
    (hveiled : ∀ field ∈ shape.fields, Veiled kind R field) (hab : Interchangeable a b)
    {c : ItemsContext .object}
    (hshown : ∀ name, c.key.name? = some name → name ∉ kind.shown) (hrefl : ∀ s, R s s)
    (start : σ) (gap : Blanks) (r : List Char) :
    let text (s : Scalar) := gap.1 ++ ((Value.bracketed .object (c.fill (.scalar s))).text ++ r)
    Twins a b (¬Fits kind c a) R (shape.read start (text a)) (shape.read start (text b)) := by
  refine Shape.read_fill hab (fun field hfield s => (hveiled field hfield).settles s)
    (fun field hfield a b P s t hst cs => (hveiled field hfield).keeps hst cs) hrefl c ?_ start gap r
  intro key hkey field hfind s gap r
  have hname : field.name = key := eq_of_beq
    (List.find?_some (p := fun field : Member σ => field.name == key) hfind)
  subst hname
  exact (hveiled field (List.mem_of_find?_eq_some hfind)).fill hab hkey (hshown _ hkey) hrefl s gap r

end Fields

/-! ## Credentials -/

theorem serviceShape_veiled : ∀ field ∈ serviceShape.fields,
    Veiled .service (fun c d => redactedService c = redactedService d) field := by
  simp only [serviceShape, List.forall_mem_cons]
  refine ⟨?_, ?_, ?_, ?_, ?_, fun _ h => absurd h List.not_mem_nil⟩
  · exact .shown _ _ (by decide) fun s t v h =>
      congrArg (fun c : ServiceCredential => { c with entity := v }) h
  · exact .shown _ _ (by decide) fun s t v h =>
      congrArg (fun c : ServiceCredential => { c with identifier := v }) h
  · exact .shown _ _ (by decide) fun s t v h =>
      congrArg (fun c : ServiceCredential => { c with userName := v }) h
  · exact .text _ _ (by decide) fun s t v w h hvw =>
      (congrArg (fun c : ServiceCredential => { c with password := redactedText v }) h).trans
        (congrArg (fun v => { redactedService t with password := v }) hvw)
  · exact .attributes _ _ (by decide) fun s t d e h hde =>
      (congrArg (fun c : ServiceCredential => { c with additional := redactedAttributes d }) h).trans
        (congrArg (fun d => { redactedService t with additional := d }) hde)

theorem certificateShape_veiled : ∀ field ∈ certificateShape.fields,
    Veiled .certificate (fun c d => redactedCertificate c = redactedCertificate d) field := by
  simp only [certificateShape, List.forall_mem_cons]
  refine ⟨?_, ?_, ?_, ?_, ?_, fun _ h => absurd h List.not_mem_nil⟩
  · exact .shown _ _ (by decide) fun s t v h =>
      congrArg (fun c : CertificateCredential => { c with entity := v }) h
  · exact .shown _ _ (by decide) fun s t v h =>
      congrArg (fun c : CertificateCredential => { c with identifier := v }) h
  · exact .text _ _ (by decide) fun s t v w h hvw =>
      (congrArg (fun c : CertificateCredential => { c with authority := redactedText v }) h).trans
        (congrArg (fun v => { redactedCertificate t with authority := v }) hvw)
  · exact .text _ _ (by decide) fun s t v w h hvw =>
      (congrArg (fun c : CertificateCredential => { c with key := redactedText v }) h).trans
        (congrArg (fun v => { redactedCertificate t with key := v }) hvw)
  · exact .text _ _ (by decide) fun s t v w h hvw =>
      (congrArg (fun c : CertificateCredential => { c with certificate := redactedText v }) h).trans
        (congrArg (fun v => { redactedCertificate t with certificate := v }) hvw)

theorem genericShape_veiled : ∀ field ∈ genericShape.fields,
    Veiled .generic (fun c d => redactedGeneric c = redactedGeneric d) field := by
  simp only [genericShape, List.forall_mem_cons]
  refine ⟨?_, ?_, ?_, ?_, fun _ h => absurd h List.not_mem_nil⟩
  · exact .shown _ _ (by decide) fun s t v h =>
      congrArg (fun c : GenericCredential => { c with type := v }) h
  · exact .shown _ _ (by decide) fun s t v h =>
      congrArg (fun c : GenericCredential => { c with entity := v }) h
  · exact .shown _ _ (by decide) fun s t v h =>
      congrArg (fun c : GenericCredential => { c with identifier := v }) h
  · exact .attributes _ _ (by decide) fun s t d e h hde =>
      (congrArg (fun c : GenericCredential => { c with attributes := redactedAttributes d }) h).trans
        (congrArg (fun d => { redactedGeneric t with attributes := d }) hde)

variable {a b : Scalar}

/-- **A credential is read in step**, unless the literal is refused. -/
theorem decoder_fill (kind : Kind) (hab : Interchangeable a b) {c : ItemsContext .object}
    (hshown : ∀ name, c.key.name? = some name → name ∉ kind.shown) (gap : Blanks)
    (r : List Char) :
    let text (s : Scalar) := gap.1 ++ ((Value.bracketed .object (c.fill (.scalar s))).text ++ r)
    Twins a b (¬Fits kind c a) (fun c d => c.redacted = d.redacted)
      (decoder kind (text a)) (decoder kind (text b)) := by
  cases kind with
  | service =>
    have hread := shape_fill serviceShape_veiled hab hshown (fun _ => rfl)
      ⟨"", "", "", "", Dictionary.empty⟩ gap r
    exact hread.map (S := fun c d => redacted c = redacted d) (f := service) (g := service)
      fun _ _ h => congrArg service h
  | certificate =>
    have hread := shape_fill certificateShape_veiled hab hshown (fun _ => rfl)
      ⟨"", "", "", "", ""⟩ gap r
    exact hread.map (S := fun c d => redacted c = redacted d) (f := certificate)
      (g := certificate) fun _ _ h => congrArg certificate h
  | generic =>
    have hread := shape_fill genericShape_veiled hab hshown (fun _ => rfl)
      ⟨"", "", "", Dictionary.empty⟩ gap r
    exact hread.map (S := fun c d => redacted c = redacted d) (f := generic) (g := generic)
      fun _ _ h => congrArg generic h

/-- What is known of the entries in a place that hold one literal each: they hold credentials that
are the same once redacted, or they have the same fault, or the literal is refused and the fault
tells what it is. -/
inductive ReadInStep (kind : Kind) (slot : Slot) (a b : Scalar) : Prop where
  | same (c d : Credential) (h : c.redacted = d.redacted)
      (ha : decode (decoder kind) (slot.fill (.scalar a)) = .ok c)
      (hb : decode (decoder kind) (slot.fill (.scalar b)) = .ok d)
  | faulty (f g : Fault) (h : f.Alike g)
      (ha : decode (decoder kind) (slot.fill (.scalar a)) = .error f)
      (hb : decode (decoder kind) (slot.fill (.scalar b)) = .error g)
  | quoted (h : ¬Fits kind slot.members a) (expected : String) (r : List Char)
      (ha : decode (decoder kind) (slot.fill (.scalar a)) =
        .error (mismatch expected (a.text ++ r)))
      (hb : decode (decoder kind) (slot.fill (.scalar b)) =
        .error (mismatch expected (b.text ++ r)))

/-- **An entry is decoded in step.** -/
theorem decode_fill (kind : Kind) (hab : Interchangeable a b) {slot : Slot}
    (hshown : ∀ name, slot.members.key.name? = some name → name ∉ kind.shown) :
    ReadInStep kind slot a b := by
  have hread : Twins a b (¬Fits kind slot.members a) (fun c d => redacted c = redacted d)
      (decoder kind (slot.text (.scalar a))) (decoder kind (slot.text (.scalar b))) :=
    decoder_fill kind hab hshown slot.ahead slot.behind.1
  have ha := decode_ofList (decoder kind) (slot.text (.scalar a))
  have hb := decode_ofList (decoder kind) (slot.text (.scalar b))
  generalize decoder kind (slot.text (.scalar a)) = x at ha hread
  generalize decoder kind (slot.text (.scalar b)) = y at hb hread
  cases hread with
  | error h => exact .faulty _ _ h ha hb
  | quoted h expected r => exact .quoted h expected r ha hb
  | ok h r =>
    unfold ended at ha hb
    cases hrest : skipBlanks r with
    | nil =>
      simp only [hrest] at ha hb
      exact .same _ _ h ha hb
    | cons c cs =>
      simp only [hrest] at ha hb
      exact .faulty _ _ .rfl ha hb

end Credential

end CredentialRelay
