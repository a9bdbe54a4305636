import CredentialRelay.Attempt
import CredentialRelay.Dictionary
import CredentialRelay.Kubernetes.Store
import CredentialRelay.Vault.Session

/-!
# What a cycle works with

A cycle reads a snapshot of the secret, opens a session with the vault, and stores credentials
through it. `Services` says how that is done in some world.

A service that is not one of this library may fail for reasons of its own; it tells them as text.

Models the interfaces of `get_secret`, `authenticate` and `put_credential`.
-/

namespace CredentialRelay

/-- The entries of the secret at one time. -/
structure Snapshot where
  data : Dictionary String
  lastUpdated : Instant
  deriving DecidableEq

/-- What is shown of a snapshot: its keys and its time. -/
def Snapshot.describe (s : Snapshot) : String :=
  "SourceSecret \x7b keys: " ++ Text.quotedList s.data.keys ++ ", last_updated_time: " ++
    s.lastUpdated.describe ++ " \x7d"

namespace Service

/-- Why a service failed. -/
inductive Cause where
  | kubernetes (cause : Kubernetes.Cause)
  | vault (cause : Vault.Cause)
  | readingToken
  | readingProof (path : String)
  | missingFile
  | notText
  /-- A reason that another service tells. -/
  | told (text : String)
  deriving Repr, DecidableEq

/-- The wording of each cause. -/
def Cause.message : Cause → String
  | .kubernetes cause => cause.message
  | .vault cause => cause.message
  | .readingToken => "Failed to read Vault token"
  | .readingProof path => s!"Failed to read service account token from {path}"
  | .missingFile => "No such file or directory (os error 2)"
  | .notText => "stream did not contain valid UTF-8"
  | .told text => text

/-- Whether a cause says that there is no such secret. -/
def Cause.isNotFound : Cause → Bool
  | .kubernetes cause => cause.isNotFound
  | _ => false

/-- A failure in one line. -/
def line (failure : Failure Cause) : String :=
  failure.line Cause.message

end Service

/-- How the secret is read and credentials are stored in a world `σ`, with sessions `ν`. -/
structure Services (σ ν : Type) where
  /-- Reads the secret with the given namespace and name. -/
  read : (namespaceName name : String) → σ → Attempt Service.Cause σ Snapshot
  /-- Opens a session. -/
  login : σ → Attempt Service.Cause σ ν
  /-- Stores attributes below a mount and at a path. -/
  store : ν → (mount path : String) → Attributes → σ → Attempt Service.Cause σ Unit

end CredentialRelay
