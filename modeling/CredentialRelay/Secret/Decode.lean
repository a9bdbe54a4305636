import CredentialRelay.Json.Decoder
import CredentialRelay.Secret.Basic
import CredentialRelay.Text.Base64
import CredentialRelay.Text.Utf8
import CredentialRelay.Time.Rfc3339

/-!
# Reading secrets from JSON

A secret is an object with its entries and its metadata, in which every known member is checked,
used or not. A member may be `null` or missing; one that is repeated counts with its last value.

* Bytes are written in Base64, and times as timestamps.
* The members `kind` and `apiVersion` have to name a secret of the first version if they are
  there.
* The records of writes hold a description of the fields written, which may be any value of
  limited depth.
-/

namespace CredentialRelay.Secret

open Json

/-- A member whose value is put into the record. -/
def member (name : String) (decoder : Decoder α) (set : σ → α → σ) : Member σ :=
  ⟨name, fun s cs => (decoder cs).map fun (value, rest) => (set s value, rest)⟩

/-- A member whose value is checked and dropped. -/
def checked (name : String) (decoder : Decoder α) : Member σ :=
  member name decoder fun s _ => s

/-- An object that may be `null`, with its known members in any order. -/
def record (expected : String) (fields : List (Member σ)) : Shape σ where
  expected := expected
  fields := fields
  positional := false
  unique := false
  required := []

/-- Reads a text that may be `null`. -/
def textOption : Decoder (Option String) :=
  optional Json.text

/-- Reads a text that has to be the given one. -/
def exactText (expected : String) : Decoder Unit :=
  textAs "a string" fun s =>
    if s = expected then .ok () else .error (.invalidValue (.text s) expected)

/-- Reads bytes in Base64. -/
def bytes : Decoder (List UInt8) :=
  orDefault [] <| textAs "ByteString" fun s =>
    match Text.Base64.decode (Text.Utf8.encode s.toList) with
    | .ok bytes => .ok bytes
    | .error (.invalidLength _) => .error (.invalidLength s.utf8ByteSize "len % 4 == 0")
    | .error _ => .error (.invalidValue (.text s) "base64-encoded string")

/-- Reads a timestamp. -/
def time : Decoder Instant :=
  textAs "an RFC 3339 formatted date and time string" fun s =>
    (Timestamp.parse s).mapError fun fault => .malformedText fault.message

/-- Reads an object with texts, or `null`. -/
def labels : Decoder (Option Unit) :=
  optional (dictionary (fun _ _ _ => ()) () Json.text)

/-- How deep the description of the fields written may be. -/
def fieldsDepth : Nat := 124

/-- A record of a write, of which the time is kept. -/
def writeShape : Shape (Option Instant) :=
  record "ManagedFieldsEntry" [
    checked "apiVersion" textOption,
    checked "fieldsType" textOption,
    checked "fieldsV1" (optional (anyValue fieldsDepth)),
    checked "manager" textOption,
    checked "operation" textOption,
    checked "subresource" textOption,
    member "time" (optional time) fun _ t => t]

/-- A reference to an owner, which is not used. -/
def ownerShape : Shape Unit :=
  record "OwnerReference" [
    checked "apiVersion" textOption,
    checked "blockOwnerDeletion" (optional boolean),
    checked "controller" (optional boolean),
    checked "kind" textOption,
    checked "name" textOption,
    checked "uid" textOption]

/-- The metadata of a secret, of which the times are kept. -/
def metadataShape : Shape Secret :=
  record "ObjectMeta" [
    checked "annotations" labels,
    member "creationTimestamp" (optional time) fun s t => { s with created := t },
    checked "deletionGracePeriodSeconds" (optional integer),
    checked "deletionTimestamp" (optional time),
    checked "finalizers" (optional (list Json.text)),
    checked "generateName" textOption,
    checked "generation" (optional integer),
    checked "labels" labels,
    member "managedFields" (orDefault [] (list (writeShape.read none)))
      fun s writes => { s with writes := writes },
    checked "name" textOption,
    checked "namespace" textOption,
    checked "ownerReferences" (optional (list (ownerShape.read ()))),
    checked "resourceVersion" textOption,
    checked "selfLink" textOption,
    checked "uid" textOption]

/-- Reads the metadata into a secret; metadata that is repeated counts with its last value. -/
def metadata (s : Secret) : Decoder Secret :=
  let fresh : Secret := { s with created := none, writes := [] }
  orDefault fresh (metadataShape.read fresh)

/-- A secret. -/
def shape : Shape Secret :=
  record "Secret" [
    checked "apiVersion" (exactText "v1"),
    checked "kind" (exactText "Secret"),
    member "data" (orDefault Dictionary.empty (dictionary Dictionary.insert Dictionary.empty bytes))
      fun s data => { s with data := data },
    checked "immutable" (optional boolean),
    ⟨"metadata", metadata⟩,
    member "stringData"
      (orDefault Dictionary.empty (dictionary Dictionary.insert Dictionary.empty Json.text))
      fun s data => { s with stringData := data },
    checked "type" textOption]

/-- Reads a secret from a JSON text. -/
def parse (text : String) : Except Json.Fault Secret :=
  decode (shape.read empty) text

end CredentialRelay.Secret
