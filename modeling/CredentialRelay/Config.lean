import CredentialRelay.Dictionary
import CredentialRelay.Number.Word
import CredentialRelay.Schedule.Descriptor

/-!
# Settings

All settings come from the environment, once, and each has a default.

* A text that is unset or blank counts as the default, except for the namespace of the secret, for
  which every text counts that is set.
* A number that is unset or cannot be read counts as the default. Blanks around it do not matter.
* The address loses the slashes at its end, and the mount those at both ends.
* `Config.validate` refuses the settings with which no cycle could succeed; the first one decides.

Models `from_lookup` (`Config.ofEnvironment`) and `validate` (`Config.validate`).

Out of scope: variables that are not UTF-8.
-/

namespace CredentialRelay

/-- The variables of a process with their values. -/
abbrev Environment := Dictionary String

/-- How a session with the vault is opened. -/
inductive AuthMethod where
  /-- With a token that a secret holds. -/
  | token (secretName secretNamespace tokenKey : String)
  /-- With the identity of the process, which a file proves. -/
  | kubernetes (role authMount jwtPath : String)
  deriving Repr, DecidableEq

/-- Where the vault is and how it is used. -/
structure VaultConfig where
  address : String
  auth : AuthMethod
  /-- The mount below which credentials are stored. -/
  credentialMount : String
  /-- How many seconds a request may take. -/
  timeoutSeconds : Nat
  deriving Repr, DecidableEq

/-- All settings. -/
structure Config where
  /-- The name of the secret that holds the credentials. -/
  secretName : String
  /-- The namespace of that secret. -/
  namespaceName : String
  /-- When to work, as a schedule is written. -/
  frequency : String
  vault : VaultConfig
  /-- The port of the probes. -/
  metricsPort : Nat
  /-- The form of log lines. -/
  logFormat : String
  deriving Repr, DecidableEq

namespace Config

/-- Why settings are refused. -/
inductive Cause where
  | unknownAuthMethod (method : String)
  | emptySecretName
  | emptyNamespace
  | emptyAddress
  | emptyMount
  | zeroTimeout
  | badFrequency (frequency : String)
  /-- A reason why the schedule is refused. -/
  | schedule (cause : Schedule.Cause)
  deriving Repr, DecidableEq

/-- The wording of each cause. -/
def Cause.message : Cause → String
  | .unknownAuthMethod method =>
    s!"Unsupported VAULT_AUTH_METHOD '{method}'. Expected 'token' or 'kubernetes'"
  | .emptySecretName => "VAULT_CRED_SYNC_SECRET_NAME cannot be empty"
  | .emptyNamespace => "Sync secret namespace cannot be empty"
  | .emptyAddress => "VAULT_ADDR cannot be empty"
  | .emptyMount => "VAULT_CREDENTIAL_MOUNT cannot be empty"
  | .zeroTimeout => "VAULT_HTTP_TIMEOUT_SECS must be greater than 0"
  | .badFrequency frequency => s!"Invalid VAULT_CRED_SYNC_FREQUENCY '{frequency}'"
  | .schedule cause => cause.message

/-- A text setting; blank counts as unset. -/
def textOr (env : Environment) (key default : String) : String :=
  match env.get? key with
  | some value => if Text.allBlank value then default else value
  | none => default

/-- A numeric setting below `bound`; what cannot be read counts as unset. -/
def naturalOr (env : Environment) (key : String) (bound default : Nat) : Nat :=
  match env.get? key with
  | some value =>
    match Text.readNatural bound (Text.trim value).toList with
    | .ok n => n
    | .error _ => default
  | none => default

/-- The namespace of the secret: set for it, or else the one that the process is in. -/
def namespaceOf (env : Environment) : String :=
  ((env.get? "VAULT_CRED_SYNC_SECRET_NAMESPACE").or (env.get? "POD_NAMESPACE")).getD "default"

/-- The method of authentication. The secret with the token is in the namespace of the
credentials unless it is said to be elsewhere. -/
def authOf (env : Environment) : Except (Failure Cause) AuthMethod :=
  let method := Text.lowercase (textOr env "VAULT_AUTH_METHOD" "token")
  if method = "token" then
    .ok (.token (textOr env "VAULT_SECRET_NAME" "vault-server-init")
      (textOr env "VAULT_SECRET_NAMESPACE" (namespaceOf env))
      (textOr env "VAULT_SECRET_TOKEN_KEY_NAME" "root-token"))
  else if method = "kubernetes" then
    .ok (.kubernetes (textOr env "VAULT_ROLE" "vault-cred-sync")
      (textOr env "VAULT_K8S_AUTH_MOUNT" "kubernetes")
      (textOr env "VAULT_SA_TOKEN_PATH" "/var/run/secrets/kubernetes.io/serviceaccount/token"))
  else fail (.unknownAuthMethod method)

/-- The settings of an environment. -/
def ofEnvironment (env : Environment) : Except (Failure Cause) Config := do
  let auth ← authOf env
  return {
    secretName := textOr env "VAULT_CRED_SYNC_SECRET_NAME" "vault-cred-sync-data"
    namespaceName := namespaceOf env
    frequency := textOr env "VAULT_CRED_SYNC_FREQUENCY" "@every 2m"
    vault := {
      address := Text.trimEndSlashes (textOr env "VAULT_ADDR" "http://vault:8200")
      auth := auth
      credentialMount := Text.trimSlashes (textOr env "VAULT_CREDENTIAL_MOUNT" "secret")
      timeoutSeconds := naturalOr env "VAULT_HTTP_TIMEOUT_SECS" Word.size64 30 }
    metricsPort := naturalOr env "METRICS_PORT" Word.size16 8080
    logFormat := textOr env "LOG_FORMAT" "text" }

/-- The settings when nothing is set. -/
def default : Config where
  secretName := "vault-cred-sync-data"
  namespaceName := "default"
  frequency := "@every 2m"
  vault := {
    address := "http://vault:8200"
    auth := .token "vault-server-init" "default" "root-token"
    credentialMount := "secret"
    timeoutSeconds := 30 }
  metricsPort := 8080
  logFormat := "text"

instance : Inhabited Config := ⟨default⟩

/-- The schedule of the settings, if no setting is refused. -/
def validate (config : Config) : Except (Failure Cause) Schedule :=
  if Text.allBlank config.secretName then fail .emptySecretName
  else if Text.allBlank config.namespaceName then fail .emptyNamespace
  else if config.vault.address.isEmpty then fail .emptyAddress
  else if config.vault.credentialMount.isEmpty then fail .emptyMount
  else if config.vault.timeoutSeconds = 0 then fail .zeroTimeout
  else
    match Schedule.parse config.frequency with
    | .ok schedule => .ok schedule
    | .error failure => within (.badFrequency config.frequency) (.error (failure.map .schedule))

end Config

end CredentialRelay
