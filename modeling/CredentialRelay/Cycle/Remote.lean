import CredentialRelay.Config
import CredentialRelay.Cycle.Services

/-!
# Remote services

A world in which the secret is in a cluster and credentials are stored in a vault, both of which
answer requests. A session is opened with a token that another secret holds, or by a proof that is
in a file.

Models `get_secret` (`read`) and `authenticate` (`login`) of the remote services.

Out of scope: that the token is erased from memory when a cycle is over.
-/

namespace CredentialRelay

open Log

/-- A cluster, a vault, and the files within reach. -/
structure Surroundings where
  cluster : Kubernetes.Cluster
  vault : Vault.Server
  files : Dictionary (List UInt8)

namespace Surroundings

/-- Acts on the cluster. -/
def onCluster {α : Type} (s : Surroundings)
    (act : Kubernetes.Cluster → Attempt Kubernetes.Cause Kubernetes.Cluster α) :
    Attempt Service.Cause Surroundings α :=
  ((act s.cluster).mapCause .kubernetes).lift fun cluster => { s with cluster := cluster }

/-- Acts on the vault. -/
def onVault {α : Type} (s : Surroundings)
    (act : Vault.Server → Attempt Vault.Cause Vault.Server α) :
    Attempt Service.Cause Surroundings α :=
  ((act s.vault).mapCause .vault).lift fun vault => { s with vault := vault }

/-- The text of a file. -/
def readFile (s : Surroundings) (path : String) : Except (Failure Service.Cause) String :=
  match s.files.get? path with
  | none => fail .missingFile
  | some bytes =>
    match Text.Utf8.decode bytes with
    | .ok text => .ok text
    | .error _ => fail .notText

/-- The entries of a secret with its time. -/
def snapshot (namespaceName name : String) (secret : Secret) (cluster : Kubernetes.Cluster) :
    Attempt Kubernetes.Cause Kubernetes.Cluster Snapshot :=
  let warnings := secret.textWarnings ++ secret.timeWarnings
  match secret.lastUpdated? with
  | none => { Attempt.failure (.undated namespaceName name) cluster with log := warnings }
  | some time =>
    let found : Event := event .debug .source
      s!"Read secret {namespaceName}/{name} with {secret.texts.size} entries (last updated {time.render})"
    { Attempt.success ⟨secret.texts, time⟩ cluster with log := warnings ++ [found] }

/-- Reads the secret. -/
def read (namespaceName name : String) (s : Surroundings) :
    Attempt Service.Cause Surroundings Snapshot :=
  s.onCluster fun cluster =>
    (Kubernetes.fetch namespaceName name cluster).andThen (snapshot namespaceName name)

/-- Opens a session. -/
def login (config : VaultConfig) (s : Surroundings) :
    Attempt Service.Cause Surroundings Vault.Session :=
  match config.auth with
  | .token name space key =>
    ((s.onCluster (Kubernetes.fetchValue space name key)).within .readingToken).andThen
      fun token s => s.onVault (Vault.Session.withToken config.address token)
  | .kubernetes role mount path =>
    (Attempt.ofResult (within (.readingProof path) (s.readFile path)) s).andThen
      fun jwt s => s.onVault (Vault.Session.login config.address mount role jwt)

/-- The services that settings describe. -/
def services (config : VaultConfig) : Services Surroundings Vault.Session where
  read := read
  login := login config
  store session mount path attributes s :=
    s.onVault (session.store mount path attributes)

/-- What is shown of the way to open sessions. -/
def describeAuthenticator (config : VaultConfig) : String :=
  "VaultAuthenticator \x7b address: " ++ Text.quoted config.address ++ ", .. \x7d"

end Surroundings

end CredentialRelay
