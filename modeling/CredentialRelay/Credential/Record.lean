import CredentialRelay.Credential.Kind
import CredentialRelay.Dictionary
import CredentialRelay.Text.Quoted

/-!
# Credentials

A credential belongs to an entity, which may have several that are told apart by an identifier.
It has a path and a set of attributes in the vault.

* `Credential.path` joins three segments with slashes: the kind's own segment, or the one that a
  generic credential names, then the entity and the identifier.
* Further attributes of a service credential come after its user name and password, so they win
  where the names are the same.
* `Credential.missing` lists the fields that may not be empty, in a fixed order.
* `Credential.describe` shows who a credential belongs to and never what it holds.

Models `prepare_path` (`pathOf`), `secret_path` (`path`), `attributes` and `missing_attributes`
(`missing`).
-/

namespace CredentialRelay

/-- The user name and the password of a service, with further attributes. -/
structure ServiceCredential where
  entity : String
  identifier : String
  userName : String
  password : String
  additional : Attributes
  deriving DecidableEq

/-- A certificate with its private key and the certificate of its authority. -/
structure CertificateCredential where
  entity : String
  identifier : String
  authority : String
  key : String
  certificate : String
  deriving DecidableEq

/-- Attributes under a type that their producer chose. -/
structure GenericCredential where
  type : String
  entity : String
  identifier : String
  attributes : Attributes
  deriving DecidableEq

/-- A credential of one of the three kinds. -/
inductive Credential where
  | service (credential : ServiceCredential)
  | certificate (credential : CertificateCredential)
  | generic (credential : GenericCredential)
  deriving DecidableEq

namespace Credential

/-- The path of a credential below its mount. -/
def pathOf (type entity identifier : String) : String :=
  type ++ "/" ++ entity ++ "/" ++ identifier

/-- The kind. -/
def kind : Credential → Kind
  | .service _ => .service
  | .certificate _ => .certificate
  | .generic _ => .generic

/-- Whom the credential belongs to. -/
def entity : Credential → String
  | .service c => c.entity
  | .certificate c => c.entity
  | .generic c => c.entity

/-- What tells apart the credentials of one entity. -/
def identifier : Credential → String
  | .service c => c.identifier
  | .certificate c => c.identifier
  | .generic c => c.identifier

/-- The first segment of the path. -/
def typeSegment : Credential → String
  | .service _ => Kind.service.pathSegment
  | .certificate _ => Kind.certificate.pathSegment
  | .generic c => c.type

/-- The path below the mount. -/
def path (c : Credential) : String :=
  pathOf c.typeSegment c.entity c.identifier

/-- What is stored at the path. -/
def attributes : Credential → Attributes
  | .service c =>
    (Dictionary.ofList [("userName", c.userName), ("password", c.password)]).merge c.additional
  | .certificate c =>
    Dictionary.ofList [("ca.pem", c.authority), ("cert.crt", c.certificate), ("key.key", c.key)]
  | .generic c => c.attributes

/-- The fields that may not be empty, in the order in which they are reported. -/
def required : Credential → List (String × String)
  | .service c => [("userName", c.userName), ("password", c.password), ("entityName", c.entity)]
  | .certificate c =>
    [("caCert", c.authority), ("cert", c.certificate), ("key", c.key), ("entityName", c.entity),
      ("certIndetifier", c.identifier)]
  | .generic c =>
    [("entityName", c.entity), ("credIndetifier", c.identifier), ("credentialType", c.type)]

/-- The names of the required fields that are empty. -/
def missing (c : Credential) : List String :=
  (c.required.filter fun field => field.2.isEmpty).map Prod.fst

/-- A record that shows some of its fields. -/
def describeFields (name : String) (fields : List (String × String)) : String :=
  name ++ " \x7b " ++ String.join (fields.map fun field => field.1 ++ ": " ++ field.2 ++ ", ") ++
    ".. \x7d"

/-- What is shown of a credential: whom it belongs to, and the names of its attributes. -/
def describe : Credential → String
  | .service c =>
    "Service(" ++ describeFields "ServiceCredential" [
      ("entity_name", Text.quoted c.entity), ("cred_identifier", Text.quoted c.identifier),
      ("user_name", Text.quoted c.userName),
      ("additional_keys", Text.quotedList c.additional.keys)] ++ ")"
  | .certificate c =>
    "Certificate(" ++ describeFields "CertificateData" [
      ("entity_name", Text.quoted c.entity), ("cert_identifier", Text.quoted c.identifier)] ++ ")"
  | .generic c =>
    "Generic(" ++ describeFields "GenericCredential" [
      ("credential_type", Text.quoted c.type), ("entity_name", Text.quoted c.entity),
      ("cred_identifier", Text.quoted c.identifier),
      ("credential_keys", Text.quotedList c.attributes.keys)] ++ ")"

end Credential

end CredentialRelay
