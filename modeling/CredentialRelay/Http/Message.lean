import CredentialRelay.Attempt
import CredentialRelay.Url.Parse

/-!
# Requests and responses

A request names a URL and may carry a token and a body. It can be made only for a URL with a host
and with a token that may stand in a header, and sent only over HTTP, encrypted or not.

* The name and the password of a user are taken out of the URL.
* A fault of the URL comes before one of the token, which comes before a scheme that is not HTTP,
  and that comes before a URL that no request can name: one that is too long, or whose host has
  characters that URIs do not have there. A URL without a host counts as having a wrong scheme, and
  that comes first as well.
* The body of a response is read as UTF-8, whatever its headers say of it. What is no character
  becomes U+FFFD, and a byte order mark is a character like any other.

Out of scope: all headers but the one with the token, and the versions of the protocol.
-/

namespace CredentialRelay.Http

/-- What a request asks for. -/
inductive Method where
  | get
  | post
  deriving Repr, DecidableEq

/-- The name of a method. -/
def Method.name : Method → String
  | .get => "GET"
  | .post => "POST"

/-- A request with a body of some kind. -/
structure Request (β : Type) where
  method : Method
  url : Url
  /-- The token that proves who asks. -/
  token : Option String
  body : Option β
  deriving Repr, DecidableEq

/-- A response. -/
structure Response where
  status : Nat
  body : List UInt8
  /-- Where to ask instead. -/
  location : Option String
  deriving Repr, DecidableEq

/-- The body as text. -/
def Response.text (r : Response) : String :=
  Text.Utf8.decodeLossy r.body

/-- Why an exchange failed. -/
inductive Cause where
  /-- No request can be made, possibly for a URL that is known. -/
  | building (url : Option Url)
  | badUrl (fault : Url.Fault)
  | badScheme
  | badHeader
  | badUri
  /-- A request cannot be sent. -/
  | sending (url : Url)
  | connecting
  | connectingTcp
  | unreachable
  | transmitting
  | closed
  /-- A redirection cannot be followed. -/
  | following (url : Url)
  | tooManyRedirects
  /-- A body cannot be read. -/
  | decoding
  | json (message : String)
  deriving Repr, DecidableEq

/-- The wording of each cause. -/
def Cause.message : Cause → String
  | .building none => "builder error"
  | .building (some url) => s!"builder error for url ({url.render})"
  | .badUrl fault => fault.message
  | .badScheme => "URL scheme is not allowed"
  | .badHeader => "failed to parse header value"
  | .badUri => "Parsed Url is not a valid Uri"
  | .sending url => s!"error sending request for url ({url.render})"
  | .connecting => "client error (Connect)"
  | .connectingTcp => "tcp connect error"
  | .unreachable => "Network is unreachable (os error 101)"
  | .transmitting => "client error (SendRequest)"
  | .closed => "connection closed before message completed"
  | .following url => s!"error following redirect for url ({url.render})"
  | .tooManyRedirects => "too many redirects"
  | .decoding => "error decoding response body"
  | .json message => message

/-- Whether a token may stand in a header. Bytes beyond ASCII may. -/
def isHeaderValue (token : String) : Bool :=
  token.toList.all fun c => c == '\t' || (decide (0x20 ≤ c.toNat) && c.toNat != 0x7f)

/-- Whether requests for a URL can be sent. -/
def isSendable (url : Url) : Bool :=
  (url.scheme == "http" || url.scheme == "https") && url.host.isSome

/-- How many bytes a URL may have that a request names. -/
def maxUrlBytes : Nat := 65534

/-- Whether a character may stand in the name of a host that a request names. -/
def isHostChar (c : Char) : Bool :=
  c.isAlphanum || "-._~!$&'()*+,;=".toList.contains c

/-- Whether a request can name a host. -/
def isNameable : Url.Host → Bool
  | .name text => text.toList.all isHostChar
  | .address4 _ | .address6 _ => true

/-- Whether a request can name a URL. -/
def isUri (url : Url) : Bool :=
  url.host.all isNameable && decide (url.render.utf8ByteSize ≤ maxUrlBytes)

/-- Makes a request. -/
def Request.make {β : Type} (method : Method) (address : String) (token : Option String)
    (body : Option β) : Except (Failure Cause) (Request β) :=
  match Url.parse address with
  | .error fault => within (.building none) (fail (.badUrl fault))
  | .ok url =>
    if url.host.isNone then within (.building (some url)) (fail .badScheme)
    else if (token.map isHeaderValue).getD true = false then
      within (.building none) (fail .badHeader)
    else if isSendable url = false then within (.building (some url.withoutUser)) (fail .badScheme)
    else if isUri url.withoutUser then .ok ⟨method, url.withoutUser, token, body⟩
    else within (.building (some url.withoutUser)) (fail .badUri)

end CredentialRelay.Http
