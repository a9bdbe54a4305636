import CredentialRelay.Http.Message
import CredentialRelay.Http.Status

/-!
# Exchanges

A peer answers requests from a list of replies, in order, and remembers what it was asked. It may
also be out of reach. Requests over encrypted connections are no different from others.

A response may send a request elsewhere. The statuses 301, 302 and 303 turn it into a `GET` without
a body; 307 and 308 leave it as it is. The token stays with it either way. At most ten responses
are followed; one without a location, or with one that cannot be used, is the last.

How a location is understood is not determined here: a client of a peer has a way to do that,
`Peer.locate`, and whatever it is, it is asked for every location.

* `Locate`: how a client understands a location. It may make nothing of it, or another URL, or give
  up.
* `redirected locate request response`: the request that a response asks for instead.
* `settle request onward`: what comes of a response, where `onward` is what becomes of the next
  request.

Results:
* `redirected_cases`: what such a request is.

Out of scope: connections that are kept, time limits, and the negotiation of encryption; whoever
cannot be connected to is a peer that is out of reach.
-/

namespace CredentialRelay.Http

/-- What a peer does with a request. -/
inductive Reply where
  | respond (response : Response)
  /-- The connection is closed without an answer. -/
  | drop
  deriving Repr, DecidableEq

/-- Whether a peer can be reached. -/
inductive Link where
  | working
  | unreachable
  deriving Repr, DecidableEq

/-- How a location is understood that a response to a request for a URL gives. -/
abbrev Locate := Url → String → Except (Failure Cause) (Option Url)

/-- Locations are joined with the URL as the URL standard has it. -/
def Locate.joined : Locate := fun base location =>
  .ok (base.join location).toOption

/-- Someone who answers requests. -/
structure Peer (β : Type) where
  link : Link
  /-- How the locations are understood that the peer gives. -/
  locate : Locate
  replies : List Reply
  /-- What was asked, in order. -/
  asked : List (Request β)

/-- The answer when the replies are used up. -/
def exhausted : Response :=
  ⟨500, Text.Utf8.encode "script exhausted".toList, none⟩

/-- A failure to send a request. -/
def sendFailure (url : Url) (causes : List Cause) : Failure Cause :=
  ⟨.sending url, causes⟩

variable {β : Type}

/-- Sends one request. -/
def Peer.deliver (peer : Peer β) (request : Request β) : Attempt Cause (Peer β) Response :=
  match peer.link with
  | .unreachable =>
    .ofResult (.error (sendFailure request.url [.connecting, .connectingTcp, .unreachable])) peer
  | .working =>
    let asked := peer.asked ++ [request]
    match peer.replies with
    | [] => .success exhausted { peer with asked := asked }
    | .respond response :: rest =>
      .success response { peer with replies := rest, asked := asked }
    | .drop :: rest =>
      .ofResult (.error (sendFailure request.url [.transmitting, .closed]))
        { peer with replies := rest, asked := asked }

/-- Whether a status turns a request into one for another page. -/
def turnsIntoGet (status : Nat) : Bool :=
  status == 301 || status == 302 || status == 303

/-- Whether a status sends a request elsewhere as it is. -/
def keepsRequest (status : Nat) : Bool :=
  status == 307 || status == 308

/-- The URL that a response points to from another one. -/
def Response.target (response : Response) (locate : Locate) (base : Url) :
    Except (Failure Cause) (Option Url) :=
  match response.location with
  | some location => locate base location
  | none => .ok none

/-- The request that a response asks for instead, if it does. -/
def redirected (locate : Locate) (request : Request β) (response : Response) :
    Except (Failure Cause) (Option (Request β)) :=
  if turnsIntoGet response.status then
    (response.target locate request.url).map fun target =>
      target.map fun url => { request with method := .get, url := url, body := none }
  else if keepsRequest response.status then
    (response.target locate request.url).map fun target =>
      target.map fun url => { request with url := url }
  else .ok none

/-- How many responses are followed. -/
def maxRedirects : Nat := 10

/-- What comes of a response to a request: it is the answer, or there is another request. -/
def settle (request : Request β) (onward : Request β → Peer β → Attempt Cause (Peer β) Response)
    (response : Response) (peer : Peer β) : Attempt Cause (Peer β) Response :=
  match redirected peer.locate request response with
  | .error failure => .ofResult (.error failure) peer
  | .ok none => .success response peer
  | .ok (some next) => onward next peer

/-- Sends a request and follows up to `left` responses. -/
def follow : (left : Nat) → Request β → Peer β → Attempt Cause (Peer β) Response
  | 0, request, peer =>
    (peer.deliver request).andThen <| settle request fun _ peer =>
      .ofResult (CredentialRelay.within (.following request.url) (fail .tooManyRedirects)) peer
  | left + 1, request, peer =>
    (peer.deliver request).andThen <| settle request fun next peer =>
      if isSendable next.url then follow left next peer
      else .ofResult (CredentialRelay.within (.building (some next.url)) (fail .badScheme)) peer

/-- Sends a request and follows the responses that send it elsewhere. -/
def exchange (request : Request β) (peer : Peer β) : Attempt Cause (Peer β) Response :=
  follow maxRedirects request peer

/-! ## Small laws -/

variable {locate : Locate} {request next : Request β} {response : Response}

/-- **What a response asks for instead**: a `GET` without a body after 301, 302 or 303, and the same
request after 307 or 308, for the URL that it points to. -/
theorem redirected_cases (h : redirected locate request response = .ok (some next)) :
    ∃ url, response.target locate request.url = .ok (some url) ∧
      (turnsIntoGet response.status = true ∧
          next = { request with method := .get, url := url, body := none } ∨
        turnsIntoGet response.status = false ∧ next = { request with url := url }) := by
  unfold redirected at h
  cases htarget : response.target locate request.url with
  | error failure =>
    rw [htarget] at h
    split at h
    · cases h
    · split at h <;> cases h
  | ok target =>
    rw [htarget] at h
    cases target with
    | none =>
      split at h
      · cases h
      · split at h <;> cases h
    | some url =>
      refine ⟨url, rfl, ?_⟩
      split at h
      · next hturns =>
        cases h
        exact .inl ⟨hturns, rfl⟩
      · next hturns =>
        split at h
        · cases h
          exact .inr ⟨Bool.eq_false_iff.mpr hturns, rfl⟩
        · cases h

/-- After 301, 302 or 303 the request is a `GET` without a body. -/
theorem redirected_method_eq_get (h : redirected locate request response = .ok (some next))
    (hs : turnsIntoGet response.status = true) : next.method = .get ∧ next.body = none := by
  obtain ⟨url, -, ⟨-, rfl⟩ | ⟨hkept, -⟩⟩ := redirected_cases h
  · exact ⟨rfl, rfl⟩
  · rw [hs] at hkept
    cases hkept

/-- A redirection keeps the token. -/
theorem redirected_token (h : redirected locate request response = .ok (some next)) :
    next.token = request.token := by
  obtain ⟨url, -, ⟨-, rfl⟩ | ⟨-, rfl⟩⟩ := redirected_cases h <;> rfl

end CredentialRelay.Http
