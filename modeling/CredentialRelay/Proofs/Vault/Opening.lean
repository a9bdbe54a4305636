import CredentialRelay.Proofs.Vault.Acknowledgement

/-!
# What opening a session asks the vault

A session is opened with one request: a lookup of the token that is known, or a login. There is a
session only if the last response to it is a success, and the token of the session is the one that
was looked up or the one that was granted.

* `Opening`: the two ways to open a session.
* `Opening.request address`: the request that opens a session.
* `Opening.Grants response token`: where the token of a session comes from.
* `Opening.Granted address server asked session`: the session was opened by what was asked.

Results:
* `Opening.run_asked`: opening a session asks for its request, and for what follows from it.
* `Opening.run_ok`: a session was granted with the replies of the vault.
-/

namespace CredentialRelay

namespace Vault

variable {address : String} {server : Server}

/-- How a session is opened. -/
inductive Opening where
  /-- With a token that is known. -/
  | known (token : String)
  /-- With a proof that a role may be taken. -/
  | login (mount role jwt : String)

/-- Opens a session. -/
def Opening.run (address : String) : Opening → Server → Attempt Cause Server Session
  | .known token => Session.withToken address token
  | .login mount role jwt => Session.login address mount role jwt

namespace Opening

/-- The method of the request that opens a session. -/
def method : Opening → Http.Method
  | .known _ => .get
  | .login .. => .post

/-- The URL of the request. -/
def url (address : String) : Opening → String
  | .known _ => Session.urlOf (Text.trimEndSlashes address) "auth/token/lookup-self"
  | .login mount .. =>
    Text.trimEndSlashes address ++ "/v1/auth/" ++ Text.trimSlashes mount ++ "/login"

/-- The token of the request. -/
def token? : Opening → Option String
  | .known token => some (Text.trim token)
  | .login .. => none

/-- The body of the request. -/
def body? : Opening → Option Body
  | .known _ => none
  | .login _ role jwt => some (.login role (Text.trim jwt))

/-- The request that opens a session. -/
def request (address : String) (o : Opening) : Except (Failure Http.Cause) (Http.Request Body) :=
  Http.Request.make o.method (o.url address) o.token? o.body?

/-- What the request is for. -/
def purpose : Opening → Cause
  | .known _ => .lookingUp
  | .login .. => .loggingIn

/-- What a refusal means. -/
def context : Opening → Cause
  | .known _ => .lookupRefused
  | .login _ role _ => .loginRefused role

/-- Where the token of a session comes from: it is the one that is known, without the blanks around
it, or the one that the response grants. -/
def Grants : Opening → Http.Response → String → Prop
  | .known value, _, token => token = Text.trim value
  | .login .., response, token => ∃ grant, readGrant response.body = .ok grant ∧ token = grant.token

/-- A session was opened by what the vault was asked: a trail from the request to a success, whose
responses are replies of the vault. -/
def Granted (o : Opening) (address : String) (server : Server) (asked : List (Http.Request Body))
    (session : Session) : Prop :=
  ∃ first followed last,
    o.request address = .ok first ∧ Http.Trail server.locate first followed last ∧
    asked = (followed ++ [last]).map Http.Hop.request ∧
    (followed ++ [last]).map (fun hop => .respond hop.response) <+: server.replies ∧
    Http.isSuccess last.response.status = true ∧
    o.Grants last.response session.token ∧ session.address = Text.trimEndSlashes address

/-! ## What is asked -/

/-- The part of opening a session that asks the vault. -/
theorem world_run (o : Opening) (address : String) (server : Server) :
    (o.run address server).world =
      (send o.purpose o.method (o.url address) o.token? o.body? server).world := by
  cases o with
  | known token =>
    unfold run Session.withToken
    simp only [Attempt.world_telling, Attempt.map]
    exact Attempt.world_andThen_of_same (world_checked _)
  | login mount role jwt =>
    unfold run Session.login
    simp only [Attempt.world_telling, Attempt.map]
    rw [Attempt.world_andThen_of_same, Attempt.world_andThen_of_same (world_checked _)]
    · rfl
    · intro response server
      split <;> rfl

/-- **Opening a session asks for its request**, and for what follows from it. -/
theorem run_sent (o : Opening) (address : String) (server : Server) :
    ∃ sent : List (Http.Sent Body server.locate),
      (sent.map Http.Sent.first = (o.request address).toOption.toList ∨
        server.link = .unreachable ∧ sent = []) ∧
      Http.Extends server (o.run address server).world
        (sent.flatMap Http.Sent.followed) (sent.flatMap Http.Sent.asked) := by
  rw [world_run]
  exact send_sent o.purpose o.method (o.url address) o.token? o.body? server

/-- What is asked to open a session: nothing, or one chain from the request. -/
theorem run_asked (o : Opening) (address : String) (server : Server) :
    ∃ asked, (o.run address server).world.asked = server.asked ++ asked ∧
      (asked = [] ∨ ∃ s : Http.Sent Body server.locate,
        o.request address = .ok s.first ∧ asked = s.asked) := by
  obtain ⟨sent, hfirst, hextends⟩ := o.run_sent address server
  refine ⟨_, hextends.asked, ?_⟩
  rcases hfirst with hfirst | ⟨-, rfl⟩
  · cases hmake : o.request address with
    | error failure =>
      rw [hmake] at hfirst
      obtain rfl := List.map_eq_nil_iff.mp hfirst
      exact .inl rfl
    | ok request =>
      rw [hmake] at hfirst
      obtain ⟨s, rfl, rfl⟩ := List.map_eq_singleton_iff.mp hfirst
      exact .inr ⟨s, rfl, List.flatMap_singleton ..⟩
  · exact .inl rfl

/-- A session keeps the address without the slashes at its end. -/
theorem address_of_run {o : Opening} {s : Session}
    (h : (o.run address server).result = .ok s) :
    s.address = Text.trimEndSlashes address := by
  cases o with
  | known token =>
    unfold run Session.withToken at h
    simp only [Attempt.result_telling] at h
    obtain ⟨_, -, rfl⟩ := Attempt.map_ok h
    rfl
  | login mount role jwt =>
    unfold run Session.login at h
    obtain ⟨_, -, rfl⟩ := Attempt.map_ok h
    rfl

/-- A session was opened by a response that passed. -/
theorem run_checked {o : Opening} {session : Session}
    (h : (o.run address server).result = .ok session) :
    ∃ response, (send o.purpose o.method (o.url address) o.token? o.body? server).result =
        .ok response ∧ Http.isSuccess response.status = true ∧ o.Grants response session.token := by
  cases o with
  | known token =>
    unfold run Session.withToken at h
    simp only [Attempt.result_telling] at h
    obtain ⟨_, hpassed, rfl⟩ := Attempt.map_ok h
    obtain ⟨response, hsent, hchecked, -⟩ := Attempt.andThen_ok hpassed
    exact ⟨response, hsent, checked_ok hchecked, rfl⟩
  | login mount role jwt =>
    unfold run Session.login at h
    obtain ⟨grant, hgrant, rfl⟩ := Attempt.map_ok h
    rw [Attempt.result_telling] at hgrant
    obtain ⟨passed, hpassed, hread, -⟩ := Attempt.andThen_ok hgrant
    obtain ⟨response, hsent, hchecked, -⟩ := Attempt.andThen_ok hpassed
    have hsuccess := checked_ok hchecked
    obtain rfl : response = passed := by
      unfold checked at hchecked
      rw [if_pos hsuccess] at hchecked
      exact Except.ok.inj hchecked
    refine ⟨response, hsent, hsuccess, grant, ?_, rfl⟩
    cases hbody : readGrant response.body with
    | error message =>
      rw [hbody] at hread
      cases hread
    | ok found =>
      rw [hbody] at hread
      cases hread
      rfl

/-- **A session was granted with the replies of the vault.** -/
theorem run_ok {o : Opening} {session : Session}
    (h : (o.run address server).result = .ok session) :
    ∃ asked, (o.run address server).world.asked = server.asked ++ asked ∧
      o.Granted address server asked session ∧ server.link = .working := by
  obtain ⟨response, hsent, hsuccess, hgrants⟩ := run_checked h
  obtain ⟨first, hmade, hexchange, hworld⟩ := send_ok hsent
  obtain ⟨followed, last, htrail, rfl, -, hasked, hreplies⟩ := Http.follow_trail hexchange
  refine ⟨_, ?_, ⟨first, followed, last, hmade, htrail, rfl,
    answered_of_isSuccess hreplies hsuccess, hsuccess, hgrants, address_of_run h⟩,
    Http.link_of_follow_ok hexchange⟩
  rw [world_run, hworld]
  exact hasked

end Opening

end Vault

end CredentialRelay
