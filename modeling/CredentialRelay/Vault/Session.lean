import CredentialRelay.Dictionary
import CredentialRelay.Http.Exchange
import CredentialRelay.Json.Bytes
import CredentialRelay.Number.Word
import CredentialRelay.Text.Blank

/-!
# Sessions with the vault

A session is an address with a token. It is opened with a token that is known, which the vault has
to confirm, or by a login that proves who the process is. Credentials are stored through a
session, each below a mount and at a path.

* The address loses the slashes at its end; the mount and the path lose those at both ends. Blanks
  around a known token and around a proof do not matter.
* Every response but a success is a failure: what was tried, and below it what the vault said.
* What the vault said is its list of errors, if the body is one and it is not empty, or else the
  status and the whole body.

Models `with_token` (`Session.withToken`), `login_kubernetes` (`Session.login`), `put_credential`
(`Session.store`), `make_request` (`send`) and `handle_error_response` (`refusal`).

Out of scope: the time limit of a session, and that tokens and proofs are erased from memory when
they are no longer needed.
-/

namespace CredentialRelay.Vault

open Log

/-- What is sent to the vault. -/
inductive Body where
  /-- A role, and the proof that it may be taken. -/
  | login (role jwt : String)
  /-- The attributes of a credential. -/
  | data (attributes : Attributes)
  deriving DecidableEq

/-- The vault, as it is reached. -/
abbrev Server := Http.Peer Body

/-- Why the vault cannot be used. -/
inductive Cause where
  | lookingUp
  | lookupRefused
  | loggingIn
  | loginRefused (role : String)
  | loginUnreadable
  | writing (mount path : String)
  | writeRefused (mount path : String)
  /-- The vault told its errors. -/
  | errors (status : Nat) (reasons : List String)
  /-- The vault said something else. -/
  | refused (status : Nat) (text : String)
  | http (cause : Http.Cause)
  deriving Repr, DecidableEq

/-- The wording of each cause. -/
def Cause.message : Cause → String
  | .lookingUp => "Failed to reach Vault for token lookup"
  | .lookupRefused => "Vault token lookup failed"
  | .loggingIn => "Failed to reach Vault for Kubernetes login"
  | .loginRefused role => s!"Vault Kubernetes login failed for role '{role}'"
  | .loginUnreadable => "Failed to parse Vault login response"
  | .writing mount path => s!"Failed to write {mount}/{path}"
  | .writeRefused mount path => s!"Vault rejected write to {mount}/{path}"
  | .errors status reasons =>
    s!"Vault API error (HTTP {status}): " ++ "; ".intercalate reasons
  | .refused status text => s!"HTTP {status} (status: {Http.showStatus status}): {text}"
  | .http cause => cause.message

/-! ## Bodies of responses -/

/-- A list of errors. -/
def errorsShape : Json.Shape (List String) where
  expected := "struct VaultErrorResponse"
  fields := [⟨"errors", fun _ => Json.list Json.text⟩]
  positional := true
  unique := true
  required := []

/-- What the vault said in a response that is no success. -/
def refusal (response : Http.Response) : Cause :=
  match Json.decode (errorsShape.read []) response.text with
  | .ok (e :: es) => .errors response.status (e :: es)
  | _ => .refused response.status response.text

/-- A token, and for how many seconds it is good. -/
structure Grant where
  token : String
  lease : Nat
  deriving Repr, DecidableEq

/-- A grant. -/
def grantShape : Json.Shape Grant where
  expected := "struct LoginAuth"
  fields := [
    ⟨"client_token", fun g cs => (Json.text cs).map fun (v, rest) => ({ g with token := v }, rest)⟩,
    ⟨"lease_duration", fun g cs =>
      (Json.natural "u64" Word.size64 cs).map fun (v, rest) => ({ g with lease := v }, rest)⟩]
  positional := true
  unique := true
  required := ["client_token"]

/-- The response to a login. -/
def loginShape : Json.Shape Grant where
  expected := "struct LoginResponse"
  fields := [⟨"auth", fun _ => grantShape.read ⟨"", 0⟩⟩]
  positional := true
  unique := true
  required := ["auth"]

/-- Reads the response to a login. -/
def readGrant (body : List UInt8) : Except String Grant :=
  Json.decodeBytes (loginShape.read ⟨"", 0⟩) body

/-! ## Requests -/

/-- Makes a request and sends it, with what it is for as the outermost cause of a failure. -/
def send (purpose : Cause) (method : Http.Method) (url : String) (token : Option String)
    (body : Option Body) (server : Server) : Attempt Cause Server Http.Response :=
  match Http.Request.make method url token body with
  | .error failure => .ofResult (within purpose (.error (failure.map .http))) server
  | .ok request => ((Http.exchange request server).mapCause .http).within purpose

/-- Refuses every response but a success. -/
def checked (context : Cause) (response : Http.Response) (server : Server) :
    Attempt Cause Server Http.Response :=
  if Http.isSuccess response.status then .success response server
  else .ofResult (within context (fail (refusal response))) server

/-! ## Sessions -/

/-- The right to store credentials. -/
structure Session where
  address : String
  token : String
  deriving Repr, DecidableEq

namespace Session

/-- The URL of a path below an address. -/
def urlOf (address path : String) : String :=
  address ++ "/v1/" ++ Text.trimStartSlashes path

/-- What is shown of a session, which is never its token. -/
def describe (s : Session) : String :=
  "VaultClient \x7b address: " ++ Text.quoted s.address ++ ", .. \x7d"

/-- Opens a session with a token that is known. -/
def withToken (address token : String) (server : Server) : Attempt Cause Server Session :=
  let session : Session := ⟨Text.trimEndSlashes address, Text.trim token⟩
  (((send .lookingUp .get (urlOf session.address "auth/token/lookup-self") (some session.token)
    none server).andThen (checked .lookupRefused)).map fun _ => session).telling
      fun s => event .debug .vault s!"Vault token verified against {s.address}"

/-- Opens a session by proving who the process is. -/
def login (address mount role jwt : String) (server : Server) : Attempt Cause Server Session :=
  let address := Text.trimEndSlashes address
  let url := address ++ "/v1/auth/" ++ Text.trimSlashes mount ++ "/login"
  let granted :=
    ((send .loggingIn .post url none (some (.login role (Text.trim jwt))) server).andThen
      (checked (.loginRefused role))).andThen fun response server =>
        match readGrant response.body with
        | .ok grant => .success grant server
        | .error message =>
          .ofResult (within .loginUnreadable
            ((within Http.Cause.decoding (fail (.json message))).mapError (Failure.map .http)))
            server
  (granted.telling fun grant => event .info .vault
    s!"Authenticated to Vault with Kubernetes role '{role}' (lease {grant.lease}s)").map
      fun grant => ⟨address, grant.token⟩

/-- Stores attributes below a mount and at a path. -/
def store (s : Session) (mount path : String) (attributes : Attributes) (server : Server) :
    Attempt Cause Server Unit :=
  let mount := Text.trimSlashes mount
  let path := Text.trimSlashes path
  let url := urlOf s.address (mount ++ "/data/" ++ path)
  ((((send (.writing mount path) .post url (some s.token) (some (.data attributes))
    server).andThen (checked (.writeRefused mount path))).map fun _ => ()).telling
      fun _ => event .debug .vault s!"Wrote {attributes.size} attributes to {mount}/{path}").inSpan
        ⟨"vault.kv.put", .vault, [("vault.mount", mount), ("vault.path", path)]⟩

end Session

end CredentialRelay.Vault
