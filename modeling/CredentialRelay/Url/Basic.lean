import CredentialRelay.Url.Host

/-!
# URLs

A URL is kept in its normal form: every part is encoded, the scheme and the host are in lower
case, the port is left out where it is the default one, and the path has no dot segments.

Two URLs have the same origin if they agree on the scheme, the host and the port.
-/

namespace CredentialRelay

/-- The path of a URL. -/
inductive Url.Path where
  /-- Segments, each behind a slash. -/
  | segments (segments : List String)
  /-- A text without structure. -/
  | plain (text : String)
  deriving Repr, DecidableEq

/-- A URL in its normal form. -/
structure Url where
  scheme : String
  user : String
  password : Option String
  host : Option Url.Host
  port : Option Nat
  path : Url.Path
  query : Option String
  fragment : Option String
  deriving Repr, DecidableEq

namespace Url

/-- The default port of a scheme. -/
def defaultPort? (scheme : String) : Option Nat :=
  match scheme with
  | "http" => some 80
  | "https" => some 443
  | "ws" => some 80
  | "wss" => some 443
  | "ftp" => some 21
  | _ => none

/-- Whether URLs of a scheme always have a host and a path. -/
def isSpecial (scheme : String) : Bool :=
  (defaultPort? scheme).isSome

/-- The port that is used. -/
def effectivePort (url : Url) : Option Nat :=
  url.port.or (defaultPort? url.scheme)

/-- Whom requests for a URL go to. -/
structure Origin where
  scheme : String
  host : Option Host
  port : Option Nat
  deriving Repr, DecidableEq

/-- Whom requests for the URL go to. -/
def origin (url : Url) : Origin :=
  ⟨url.scheme, url.host, url.effectivePort⟩

/-- A path as it is written. -/
def Path.render : Path → String
  | .segments parts => String.join (parts.map ("/" ++ ·))
  | .plain text => text

/-- The name and the password of a user, as they are written before a host. -/
def renderUser (url : Url) : String :=
  let password := match url.password with
    | some password => ":" ++ password
    | none => ""
  let text := url.user ++ password
  if text.isEmpty then "" else text ++ "@"

/-- The host with what belongs to it. -/
def renderAuthority (url : Url) : String :=
  match url.host with
  | some host =>
    let port := match url.port with
      | some port => s!":{port}"
      | none => ""
    "//" ++ url.renderUser ++ host.render ++ port
  | none => if url.scheme = "file" then "//" else ""

/-- The URL as it is written, up to its path. -/
def renderBase (url : Url) : String :=
  url.scheme ++ ":" ++ url.renderAuthority ++ url.path.render

/-- The URL as a request names it. -/
def renderTarget (url : Url) : String :=
  url.renderBase ++ match url.query with
    | some query => "?" ++ query
    | none => ""

/-- The URL as it is written. -/
def render (url : Url) : String :=
  url.renderTarget ++ match url.fragment with
    | some fragment => "#" ++ fragment
    | none => ""

/-- The URL without the name and the password of a user. They stay if the name is not UTF-8. -/
def withoutUser (url : Url) : Url :=
  match Text.Utf8.decode (percentDecodeChars url.user.toList) with
  | .ok _ => { url with user := "", password := none }
  | .error _ => url

end Url

end CredentialRelay
