import CredentialRelay.Http.Exchange
import CredentialRelay.Proofs.Attempt

/-!
# Exchanges do not look at tokens and bodies

A peer answers from its list of replies, and a redirection is followed for its status and its
location. The token and the body of a request are only passed on. So whatever is put in their place,
an exchange comes to the same, and the peer is asked the same but for them. Making a request looks at
the token once: it has to be one that may stand in a header.

* `Mask`: what is put in place of tokens and of bodies.
* `Peer.masked`: a peer that was asked with the mask on.

Results:
* `deliver_masked`: one request.
* `exchange_masked`: a request with all that follows from it.
* `make_masked`: a request is made for the token that is put in place of another one.
-/

namespace CredentialRelay.Http

/-- What is put in place of tokens and of bodies. -/
structure Mask (β : Type) where
  token : String → String
  body : β → β

variable {β : Type} {m : Mask β}

/-- The request with the mask on. -/
def Request.masked (m : Mask β) (request : Request β) : Request β :=
  { request with token := request.token.map m.token, body := request.body.map m.body }

/-- A peer that was asked with the mask on. -/
def Peer.masked (m : Mask β) (peer : Peer β) : Peer β :=
  { peer with asked := peer.asked.map (Request.masked m) }

theorem masked_append (asked : List (Request β)) (last : Request β) :
    (asked ++ [last]).map (Request.masked m) =
      asked.map (Request.masked m) ++ [last.masked m] := by
  rw [List.map_append, List.map_singleton]

/-- **One request is answered alike** with the mask on. -/
theorem deliver_masked (peer : Peer β) (request : Request β) :
    (peer.masked m).deliver (request.masked m) = (peer.deliver request).lift (Peer.masked m) := by
  obtain ⟨link, locate, replies, asked⟩ := peer
  simp only [Peer.deliver, Peer.masked]
  cases link with
  | unreachable => rfl
  | working =>
    cases replies with
    | nil =>
      simp only [Attempt.lift, Attempt.success, Attempt.ofResult, Peer.masked, masked_append]
    | cons reply replies =>
      cases reply with
      | respond response =>
        simp only [Attempt.lift, Attempt.success, Attempt.ofResult, Peer.masked, masked_append]
      | drop =>
        simp only [Attempt.lift, Attempt.ofResult, Peer.masked, masked_append]
        rfl

theorem redirected_masked (locate : Locate) (request : Request β) (response : Response) :
    redirected locate (request.masked m) response =
      (redirected locate request response).map (Option.map (Request.masked m)) := by
  unfold redirected
  rw [show (request.masked m).url = request.url from rfl]
  rcases response.target locate request.url with failure | (_ | url)
  · split
    · rfl
    · split <;> rfl
  · split
    · rfl
    · split <;> rfl
  · split
    · rfl
    · split <;> rfl

/-- A request is followed alike with the mask on. -/
theorem follow_masked (left : Nat) (request : Request β) (peer : Peer β) :
    follow left (request.masked m) (peer.masked m) =
      (follow left request peer).lift (Peer.masked m) := by
  induction left generalizing request peer with
  | zero =>
    unfold follow
    rw [deliver_masked]
    refine (Attempt.lift_andThen fun response peer => ?_).symm
    unfold settle
    rw [show (peer.masked m).locate = peer.locate from rfl, redirected_masked]
    rcases redirected peer.locate request response with failure | (_ | next) <;> rfl
  | succ left ih =>
    unfold follow
    rw [deliver_masked]
    refine (Attempt.lift_andThen fun response peer => ?_).symm
    unfold settle
    rw [show (peer.masked m).locate = peer.locate from rfl, redirected_masked]
    rcases redirected peer.locate request response with failure | (_ | next)
    · rfl
    · rfl
    · simp only [Except.map, Option.map]
      rw [show (next.masked m).url = next.url from rfl]
      split
      · exact (ih next peer).symm
      · rfl

/-- **An exchange comes to the same** with the mask on. -/
theorem exchange_masked (request : Request β) (peer : Peer β) :
    exchange (request.masked m) (peer.masked m) =
      (exchange request peer).lift (Peer.masked m) :=
  follow_masked maxRedirects request peer

/-- **A request is made for the token that is put in place** of another one, if both may stand in a
header or neither. -/
theorem make_masked {token : Option String}
    (h : ∀ t ∈ token, isHeaderValue (m.token t) = isHeaderValue t) (method : Method)
    (address : String) (body : Option β) :
    Request.make method address (token.map m.token) (body.map m.body) =
      (Request.make method address token body).map (Request.masked m) := by
  have hvalue : (token.map m.token).map isHeaderValue = token.map isHeaderValue := by
    rw [Option.map_map]
    exact Option.map_congr h
  unfold Request.make
  rw [hvalue]
  cases Url.parse address with
  | error fault => rfl
  | ok url =>
    simp only
    split
    · rfl
    · split
      · rfl
      · split
        · rfl
        · split <;> rfl

end CredentialRelay.Http
