import CredentialRelay.Credential.Record
import CredentialRelay.Json.Decoder

/-!
# Reading credentials

An entry is a JSON text with the fields of its kind. Every field may be left out or be `null`,
which counts as empty; fields of other names are passed over. A credential is accepted if none of
its required fields is empty.

Models `parse` of a record (`Credential.parse`); every field is read with `null_as_default`
(`orDefault`).
-/

namespace CredentialRelay.Credential

open Json

/-- Reads a text member, `null` being the empty text. -/
def textField (name : String) (set : σ → String → σ) : Member σ :=
  ⟨name, fun s cs => (orDefault "" text cs).map fun (value, rest) => (set s value, rest)⟩

/-- Reads a member with attributes, `null` being none. -/
def attributesField (name : String) (set : σ → Attributes → σ) : Member σ :=
  ⟨name, fun s cs =>
    (orDefault Dictionary.empty (dictionary Dictionary.insert Dictionary.empty text) cs).map
      fun (value, rest) => (set s value, rest)⟩

/-- How a service credential is written. -/
def serviceShape : Shape ServiceCredential where
  expected := "struct ServiceCredential"
  fields := [
    textField "entityName" fun c v => { c with entity := v },
    textField "credIndetifier" fun c v => { c with identifier := v },
    textField "userName" fun c v => { c with userName := v },
    textField "password" fun c v => { c with password := v },
    attributesField "additionalData" fun c v => { c with additional := v }]
  positional := true
  unique := true
  required := []

/-- How a certificate is written. -/
def certificateShape : Shape CertificateCredential where
  expected := "struct CertificateData"
  fields := [
    textField "entityName" fun c v => { c with entity := v },
    textField "certIndetifier" fun c v => { c with identifier := v },
    textField "caCert" fun c v => { c with authority := v },
    textField "key" fun c v => { c with key := v },
    textField "cert" fun c v => { c with certificate := v }]
  positional := true
  unique := true
  required := []

/-- How a generic credential is written. -/
def genericShape : Shape GenericCredential where
  expected := "struct GenericCredential"
  fields := [
    textField "credentialType" fun c v => { c with type := v },
    textField "entityName" fun c v => { c with entity := v },
    textField "credIndetifier" fun c v => { c with identifier := v },
    attributesField "credential" fun c v => { c with attributes := v }]
  positional := true
  unique := true
  required := []

/-- Reads a credential of a known kind. -/
def decoder : Kind → Decoder Credential
  | .service => fun cs =>
    (serviceShape.read ⟨"", "", "", "", Dictionary.empty⟩ cs).map fun (c, rest) =>
      (.service c, rest)
  | .certificate => fun cs =>
    (certificateShape.read ⟨"", "", "", "", ""⟩ cs).map fun (c, rest) => (.certificate c, rest)
  | .generic => fun cs =>
    (genericShape.read ⟨"", "", "", Dictionary.empty⟩ cs).map fun (c, rest) => (.generic c, rest)

/-- Why an entry holds no credential. -/
inductive EntryFault where
  /-- The value is no JSON text of the right form. -/
  | malformed (value : String) (fault : Json.Fault)
  /-- Required fields are empty. -/
  | incomplete (missing : List String)
  deriving Repr, DecidableEq

/-- The credential that the value of an entry stands for. -/
def parse (kind : Kind) (value : String) : Except EntryFault Credential :=
  match decode (decoder kind) value with
  | .error fault => .error (.malformed value fault)
  | .ok credential =>
    if credential.missing.isEmpty then .ok credential else .error (.incomplete credential.missing)

/-- The wording of a fault in the entry `key`. -/
def EntryFault.message (key : String) : EntryFault → String
  | .malformed value fault => s!"failed to parse {key} secret data: {fault.message value}"
  | .incomplete missing =>
    s!"credential attributes are empty for {key} secret data: missing " ++
      ", ".intercalate missing

/-- A credential is accepted exactly if its text can be read and no required field is empty. -/
theorem parse_eq_ok_iff {kind : Kind} {value : String} {c : Credential} :
    parse kind value = .ok c ↔ decode (decoder kind) value = .ok c ∧ c.missing = [] := by
  simp only [parse]
  cases decode (decoder kind) value with
  | error fault => simp
  | ok d =>
    by_cases h : d.missing = [] <;>
      simp only [h, List.isEmpty_iff, ↓reduceIte, Except.ok.injEq, reduceCtorEq, false_iff, not_and]
    · exact ⟨fun hd => ⟨hd, hd ▸ h⟩, fun hd => hd.1⟩
    · rintro rfl
      exact h

end CredentialRelay.Credential
