import CredentialRelay.Http.Exchange
import CredentialRelay.Number.Word
import CredentialRelay.Secret.Decode
import CredentialRelay.Secret.Reading

/-!
# The store of secrets

The cluster keeps secrets by namespace and name. A secret is fetched with one request, and every
status from 400 to 599 is a failure.

* A failure is told as a record of status, message, reason and code. Where the body is no such
  record, one is made from the status and the whole body.
* A secret that is read for its entries has to have a time.

Models `get_secret_value` (`fetchValue`), and with `fetch` what `get_secret` asks for.

Out of scope: how the cluster is found, how one proves to it who one is, and the rules for names.
-/

namespace CredentialRelay.Kubernetes

open Log

/-- How the cluster tells a failure. -/
structure ApiStatus where
  status : String
  message : String
  reason : String
  code : Nat
  deriving Repr, DecidableEq

namespace ApiStatus

/-- The failure in short. -/
def summary (s : ApiStatus) : String :=
  s!"{s.message}: {s.reason}"

/-- All that is known of the failure. -/
def describe (s : ApiStatus) : String :=
  "ErrorResponse \x7b status: " ++ Text.quoted s.status ++ ", message: " ++ Text.quoted s.message ++
    ", reason: " ++ Text.quoted s.reason ++ s!", code: {s.code}" ++ " \x7d"

/-- How the record is written. -/
def shape : Json.Shape ApiStatus where
  expected := "struct ErrorResponse"
  fields := [
    ⟨"status", fun s cs => (Json.text cs).map fun (v, rest) => ({ s with status := v }, rest)⟩,
    ⟨"message", fun s cs => (Json.text cs).map fun (v, rest) => ({ s with message := v }, rest)⟩,
    ⟨"reason", fun s cs => (Json.text cs).map fun (v, rest) => ({ s with reason := v }, rest)⟩,
    ⟨"code", fun s cs =>
      (Json.natural "u16" Word.size16 cs).map fun (v, rest) => ({ s with code := v }, rest)⟩]
  positional := true
  unique := true
  required := ["status", "code"]

/-- The failure that a response with the given text tells. -/
def ofResponse (status : Nat) (text : String) : ApiStatus :=
  match Json.decode (shape.read ⟨"", "", "", 0⟩) text with
  | .ok s => s
  | .error _ => ⟨Http.showStatus status, Text.quoted text, "Failed to parse error data", status⟩

end ApiStatus

/-- Why a secret cannot be had. -/
inductive Cause where
  | fetching (namespaceName name : String)
  | readingKey (key namespaceName name : String)
  | undated (namespaceName name : String)
  /-- The cluster refused. -/
  | api (status : ApiStatus)
  /-- The refusal in short. -/
  | summary (status : ApiStatus)
  | notUtf8 (error : Text.Utf8.Error)
  /-- Where the bytes stop being UTF-8. -/
  | utf8 (error : Text.Utf8.Error)
  | unreadable (message : String)
  /-- Why a body is no secret. -/
  | json (message : String)
  /-- The cluster cannot be reached. -/
  | service (cause : Http.Cause)
  | http (cause : Http.Cause)
  | secret (cause : Secret.Cause)
  deriving Repr, DecidableEq

/-- The wording of each cause. -/
def Cause.message : Cause → String
  | .fetching space name => s!"Failed to get secret {space}/{name}"
  | .readingKey key space name => s!"Failed to read key '{key}' of secret {space}/{name}"
  | .undated space name => s!"Secret {space}/{name} has no creation or update timestamp"
  | .api status => s!"ApiError: {status.summary} ({status.describe})"
  | .summary status => status.summary
  | .notUtf8 error => s!"UTF-8 Error: {error.message}"
  | .utf8 error => error.message
  | .unreadable message => s!"Error deserializing response: {message}"
  | .json message => message
  | .service cause => s!"ServiceError: {cause.message}"
  | .http cause => cause.message
  | .secret cause => cause.message

/-- Whether a cause says that there is no such thing. -/
def Cause.isNotFound : Cause → Bool
  | .api status => status.code == 404
  | _ => false

/-- The cluster, as it is reached. -/
structure Cluster where
  link : Http.Link
  replies : List Http.Reply
  /-- The paths asked for, in order. -/
  asked : List String
  deriving Repr, DecidableEq

/-- What is shown of the store. -/
def describe : String :=
  "KubeSecretStore \x7b .. \x7d"

/-- The path of a secret. -/
def pathOf (namespaceName name : String) : String :=
  "/api/v1/namespaces/" ++ namespaceName ++ "/secrets/" ++ name

/-- A failure to reach the cluster. -/
def serviceFailure (cause : Http.Cause) (below : List Http.Cause) : Failure Cause :=
  ⟨.service cause, (cause :: below).map .http⟩

/-- Sends one request. -/
def Cluster.ask (cluster : Cluster) (path : String) : Attempt Cause Cluster Http.Response :=
  match cluster.link with
  | .unreachable =>
    .ofResult (.error (serviceFailure .connecting [.connectingTcp, .unreachable])) cluster
  | .working =>
    let asked := cluster.asked ++ [path]
    match cluster.replies with
    | [] => .success Http.exhausted { cluster with asked := asked }
    | .respond response :: rest =>
      .success response { cluster with replies := rest, asked := asked }
    | .drop :: rest =>
      .ofResult (.error (serviceFailure .transmitting [.closed]))
        { cluster with replies := rest, asked := asked }

/-- The secret in a response. -/
def readSecret (response : Http.Response) : Except (Failure Cause) Secret :=
  match Text.Utf8.decode response.body with
  | .error error => within (.notUtf8 error) (fail (.utf8 error))
  | .ok text =>
    if Http.isError response.status then
      let status := ApiStatus.ofResponse response.status text
      within (.api status) (fail (.summary status))
    else
      match Secret.parse text with
      | .ok secret => .ok secret
      | .error fault =>
        let message := fault.message text
        within (.unreadable message) (fail (.json message))

/-- Fetches a secret. -/
def fetch (namespaceName name : String) (cluster : Cluster) : Attempt Cause Cluster Secret :=
  ((cluster.ask (pathOf namespaceName name)).andThen fun response cluster =>
    .ofResult (readSecret response) cluster).within (.fetching namespaceName name)

/-- Fetches one entry of a secret. -/
def fetchValue (namespaceName name key : String) (cluster : Cluster) :
    Attempt Cause Cluster String :=
  (fetch namespaceName name cluster).andThen fun secret cluster =>
    .ofResult (within (.readingKey key namespaceName name)
      ((secret.text key).mapError (Failure.map .secret))) cluster

end CredentialRelay.Kubernetes
