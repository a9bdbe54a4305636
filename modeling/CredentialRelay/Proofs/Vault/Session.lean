import CredentialRelay.Proofs.Http.Chain
import CredentialRelay.Vault.Session

/-!
# What a session asks the vault

Storing makes one request, for a URL put together from the address, the mount and the path. What
the vault is asked begins with that request, and what it answers last decides.

Results:
* `make_ok`: the request that is made, in terms of the URL.
* `send_sent`: what is sent is a chain from the request that was made.
* `store_ok`: attributes that were stored left a trail from the request that was made to a success.
* `store_asked`: whatever comes of storing, the vault was asked nothing or that request first.
-/

namespace CredentialRelay

namespace Http

variable {β : Type}

/-- A request that can be made is for the URL as it was read, without its user. -/
theorem make_ok {method : Method} {address : String} {token : Option String} {body : Option β}
    {request : Request β} (h : Request.make method address token body = .ok request) :
    ∃ url, Url.parse address = .ok url ∧ isSendable url = true ∧
      isUri url.withoutUser = true ∧ request = ⟨method, url.withoutUser, token, body⟩ := by
  unfold Request.make at h
  cases hu : Url.parse address with
  | error fault =>
    rw [hu] at h
    cases h
  | ok url =>
    simp only [hu] at h
    split at h
    · cases h
    · split at h
      · cases h
      · split at h
        · cases h
        · next hsend =>
          split at h
          · next huri =>
            cases h
            exact ⟨url, rfl, eq_true_of_ne_false hsend, huri, rfl⟩
          · cases h

/-- Requests are sent over HTTP. -/
theorem isSpecial_of_isSendable {url : Url} (h : isSendable url = true) :
    Url.isSpecial url.scheme = true := by
  unfold isSendable at h
  rcases Bool.or_eq_true_iff.mp (Bool.and_eq_true_iff.mp h).1 with hscheme | hscheme
  · rw [eq_of_beq hscheme]
    rfl
  · rw [eq_of_beq hscheme]
    rfl

/-- **An exchange asks nothing, or its own request first.** -/
theorem follow_asked (left : Nat) (request : Request β) (peer : Peer β) :
    (follow left request peer).world.asked = peer.asked ∨
      ∃ more, (follow left request peer).world.asked = peer.asked ++ request :: more := by
  cases hlink : peer.link with
  | unreachable =>
    rw [follow_unreachable hlink]
    exact .inl rfl
  | working =>
    obtain ⟨followed, asked, hchain, hextends⟩ := follow_chain left request hlink
    obtain ⟨more, rfl⟩ := hchain.exists_cons
    exact .inr ⟨more, hextends.asked⟩

end Http

namespace Vault

variable {purpose context : Cause} {method : Http.Method} {url : String} {token : Option String}
variable {body : Option Body} {server : Server}

/-- What was sent and got a response was made first. -/
theorem send_ok {response : Http.Response}
    (h : (send purpose method url token body server).result = .ok response) :
    ∃ request, Http.Request.make method url token body = .ok request ∧
      (Http.exchange request server).result = .ok response ∧
      (send purpose method url token body server).world = (Http.exchange request server).world := by
  unfold send at h ⊢
  cases hm : Http.Request.make method url token body with
  | error failure =>
    rw [hm] at h
    cases h
  | ok request =>
    rw [hm] at h
    exact ⟨request, rfl, Attempt.mapCause_ok (Attempt.within_ok h), rfl⟩

/-- Whatever comes of sending, the vault is asked nothing or the request that was made first. -/
theorem send_asked (purpose : Cause) (method : Http.Method) (url : String)
    (token : Option String) (body : Option Body) (server : Server) :
    (send purpose method url token body server).world.asked = server.asked ∨
      ∃ request more, Http.Request.make method url token body = .ok request ∧
        (send purpose method url token body server).world.asked =
          server.asked ++ request :: more := by
  unfold send
  cases hm : Http.Request.make method url token body with
  | error failure => exact .inl rfl
  | ok request =>
    rcases Http.follow_asked Http.maxRedirects request server with h | ⟨more, h⟩
    · exact .inl h
    · exact .inr ⟨request, more, rfl, h⟩

/-- **What is sent is a chain**: from the request that was made, if one can be made and the vault
can be reached. -/
theorem send_sent (purpose : Cause) (method : Http.Method) (url : String)
    (token : Option String) (body : Option Body) (server : Server) :
    ∃ sent : List (Http.Sent Body server.locate),
      (sent.map Http.Sent.first = (Http.Request.make method url token body).toOption.toList ∨
        server.link = .unreachable ∧ sent = []) ∧
      Http.Extends server (send purpose method url token body server).world
        (sent.flatMap Http.Sent.followed) (sent.flatMap Http.Sent.asked) := by
  unfold send
  cases hmake : Http.Request.make method url token body with
  | error failure => exact ⟨[], .inl rfl, Http.Extends.refl server⟩
  | ok request =>
    show ∃ sent : List (Http.Sent Body server.locate),
      (sent.map Http.Sent.first = [request] ∨ _) ∧
      Http.Extends server (Http.follow Http.maxRedirects request server).world _ _
    cases hlink : server.link with
    | unreachable =>
      rw [Http.follow_unreachable hlink]
      exact ⟨[], .inr ⟨rfl, rfl⟩, Http.Extends.refl server⟩
    | working =>
      obtain ⟨followed, asked, hchain, hextends⟩ :=
        Http.follow_chain Http.maxRedirects request hlink
      exact ⟨[⟨request, followed, asked, hchain⟩], .inl rfl, by simpa using hextends⟩

/-- A response that passes is a success. -/
theorem checked_ok {response passed : Http.Response}
    (h : (checked context response server).result = .ok passed) :
    Http.isSuccess response.status = true := by
  unfold checked at h
  split at h
  · next hs => exact hs
  · cases h

/-- Checking a response asks nothing. -/
@[simp] theorem world_checked (context : Cause) (response : Http.Response) (server : Server) :
    (checked context response server).world = server := by
  unfold checked
  split <;> rfl

namespace Session

variable {s : Session} {mount path : String} {attributes : Attributes}

/-- The URL that attributes are stored at. -/
def storeUrl (s : Session) (mount path : String) : String :=
  urlOf s.address (Text.trimSlashes mount ++ "/data/" ++ Text.trimSlashes path)

/-- The part of storing that asks the vault. -/
theorem world_store (s : Session) (mount path : String) (attributes : Attributes)
    (server : Server) :
    (s.store mount path attributes server).world =
      (send (.writing (Text.trimSlashes mount) (Text.trimSlashes path)) .post
        (s.storeUrl mount path) (some s.token) (some (.data attributes)) server).world := by
  unfold store storeUrl
  simp only [Attempt.inSpan, Attempt.world_telling, Attempt.map]
  cases hs : (send (.writing (Text.trimSlashes mount) (Text.trimSlashes path)) .post
      (urlOf s.address (Text.trimSlashes mount ++ "/data/" ++ Text.trimSlashes path))
      (some s.token) (some (.data attributes)) server).result with
  | error failure => rw [Attempt.world_andThen_of_error hs]
  | ok response => rw [Attempt.world_andThen_of_ok hs, world_checked]

/-- **What storing asks.** Nothing, or the request for its URL first. -/
theorem store_asked (s : Session) (mount path : String) (attributes : Attributes)
    (server : Server) :
    (s.store mount path attributes server).world.asked = server.asked ∨
      ∃ request more,
        Http.Request.make .post (s.storeUrl mount path) (some s.token)
          (some (Body.data attributes)) = .ok request ∧
        (s.store mount path attributes server).world.asked = server.asked ++ request :: more := by
  rw [world_store]
  exact send_asked ..

/-- **What was stored left a trail**, from the request for its URL to a success. -/
theorem store_ok (h : (s.store mount path attributes server).result = .ok ()) :
    ∃ first response,
      Http.Request.make .post (s.storeUrl mount path) (some s.token)
        (some (Body.data attributes)) = .ok first ∧
      (Http.exchange first server).result = .ok response ∧
      Http.isSuccess response.status = true ∧
      (s.store mount path attributes server).world = (Http.exchange first server).world := by
  rw [world_store]
  unfold store at h
  simp only [Attempt.inSpan, Attempt.result_telling] at h
  obtain ⟨passed, hpassed, -⟩ := Attempt.map_ok h
  obtain ⟨response, hsent, hchecked, -⟩ := Attempt.andThen_ok hpassed
  obtain ⟨first, hmade, hexchange, hworld⟩ := send_ok hsent
  exact ⟨first, response, hmade, hexchange, checked_ok hchecked, hworld⟩

end Session

end Vault

end CredentialRelay
