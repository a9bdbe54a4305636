import CredentialRelay.Cycle.Memory
import CredentialRelay.Proofs.Http.Mask
import CredentialRelay.Proofs.Vault.Opening

/-!
# What a session shows of its secrets

A session is opened with a token or with a proof, and attributes are stored through it. Two
conversations with the same vault that differ only in the token, or only in the proof, come to the
same: the same sessions are opened, the same is stored, failures have the same causes, the same is
told, and the vault is asked the same. The token is different where a request carries it, and the
proof in the body of the login. A token that may not stand in a header is an exception, since no
request is made with it; so both tokens have to be legal.

* `Opening.Alike`: two ways to open a session that differ only in the secret.
* `Opening.mask`: what hides the secret of an opening.
* `Transcript`: all that comes of a conversation.

Results:
* `Session.store_masked`: storing through a session whose token is hidden.
* `Opening.run_masked`: opening a session with the secret hidden.
* `transcript_alike`: conversations that differ only in the secret.
-/

namespace CredentialRelay.Vault

/-- The body with no proof in it. -/
def Body.withoutProof : Body → Body
  | .login role _ => .login role ""
  | .data attributes => .data attributes

/-- The session with another token. -/
def Session.masked (m : Http.Mask Body) (s : Session) : Session :=
  { s with token := m.token s.token }

/-- Stores attributes one after another, and keeps what came of each. -/
def Session.storeEach (s : Session) :
    List StoredCredential → Server → List (Attempt Cause Server Unit)
  | [], _ => []
  | write :: writes, server =>
    let stored := s.store write.mount write.path write.attributes server
    stored :: s.storeEach writes stored.world

/-- All that comes of a conversation with the vault. Every attempt has its result or its chain of
causes, the events it told, and what the vault had been asked by then. -/
structure Transcript where
  /-- The attempt to open a session. -/
  opened : Attempt Cause Server Session
  /-- The session as it is shown. -/
  shown : Option String
  /-- The attempts to store through the session. -/
  stored : List (Attempt Cause Server Unit)

/-- Opens a session and, if that succeeds, stores attributes through it. -/
def transcript (address : String) (opening : Opening) (writes : List StoredCredential)
    (server : Server) : Transcript :=
  let opened := opening.run address server
  match opened.result with
  | .ok session => ⟨opened, some session.describe, session.storeEach writes opened.world⟩
  | .error _ => ⟨opened, none, []⟩

/-- The transcript with the mask on: of the tokens and bodies that the vault was asked with, and of
the token of the session. -/
def Transcript.masked (m : Http.Mask Body) (t : Transcript) : Transcript where
  opened := (t.opened.map (Session.masked m)).lift (Http.Peer.masked m)
  shown := t.shown
  stored := t.stored.map (Attempt.lift (Http.Peer.masked m))

namespace Opening

/-- What hides the secret of an opening: every token, or every proof. -/
def mask : Opening → Http.Mask Body
  | .known _ => ⟨fun _ => "", id⟩
  | .login .. => ⟨id, Body.withoutProof⟩

/-- The opening without its secret. -/
def bare : Opening → Opening
  | .known _ => .known ""
  | .login mount role _ => .login mount role ""

/-- Whether the token of an opening may stand in a header. -/
def IsLegal : Opening → Prop
  | .known token => Http.isHeaderValue (Text.trim token) = true
  | .login .. => True

/-- Two ways to open a session that differ only in the token, if both tokens may stand in a header, or
only in the proof. -/
inductive Alike : Opening → Opening → Prop where
  | known {token other : String} (h : Http.isHeaderValue (Text.trim token) = true)
    (h' : Http.isHeaderValue (Text.trim other) = true) : Alike (.known token) (.known other)
  | login {mount role jwt other : String} : Alike (.login mount role jwt) (.login mount role other)

end Opening

/-! ## One request -/

section

variable {m : Http.Mask Body}

/-- Sending comes to the same with the mask on. -/
theorem send_masked {token : Option String}
    (h : ∀ t ∈ token, Http.isHeaderValue (m.token t) = Http.isHeaderValue t) (purpose : Cause)
    (method : Http.Method) (url : String) (body : Option Body) (server : Server) :
    (send purpose method url token body server).lift (Http.Peer.masked m) =
      send purpose method url (token.map m.token) (body.map m.body) (server.masked m) := by
  unfold send
  rw [Http.make_masked h]
  cases Http.Request.make method url token body with
  | error failure => rfl
  | ok request =>
    show _ = ((Http.exchange (request.masked m) (server.masked m)).mapCause .http).within purpose
    rw [Http.exchange_masked]
    rfl

theorem checked_masked (context : Cause) (response : Http.Response) (server : Server) :
    (checked context response server).lift (Http.Peer.masked m) =
      checked context response (server.masked m) := by
  unfold checked
  split <;> rfl

/-- A request whose response has to be a success. -/
theorem sendChecked_masked {token : Option String}
    (h : ∀ t ∈ token, Http.isHeaderValue (m.token t) = Http.isHeaderValue t)
    (purpose context : Cause) (method : Http.Method) (url : String) (body : Option Body)
    (server : Server) :
    ((send purpose method url token body server).andThen (checked context)).lift
        (Http.Peer.masked m) =
      (send purpose method url (token.map m.token) (body.map m.body) (server.masked m)).andThen
        (checked context) := by
  rw [Attempt.lift_andThen (checked_masked context), send_masked h]

/-! ## Storing -/

/-- **Storing through a session whose token is hidden** comes to the same. -/
theorem Session.store_masked {s : Session}
    (h : Http.isHeaderValue (m.token s.token) = Http.isHeaderValue s.token)
    (hbody : ∀ attributes, m.body (.data attributes) = .data attributes)
    (mount path : String) (attributes : Attributes) (server : Server) :
    (s.store mount path attributes server).lift (Http.Peer.masked m) =
      (s.masked m).store mount path attributes (server.masked m) := by
  have htoken : ∀ t ∈ some s.token, Http.isHeaderValue (m.token t) = Http.isHeaderValue t := by
    rintro t ⟨⟩
    exact h
  unfold store
  simp only
  rw [Attempt.lift_inSpan, Attempt.lift_telling, Attempt.lift_map, sendChecked_masked htoken,
    Option.map_some, Option.map_some, hbody]
  rfl

theorem Session.storeEach_masked {s : Session}
    (h : Http.isHeaderValue (m.token s.token) = Http.isHeaderValue s.token)
    (hbody : ∀ attributes, m.body (.data attributes) = .data attributes)
    (writes : List StoredCredential) (server : Server) :
    (s.storeEach writes server).map (Attempt.lift (Http.Peer.masked m)) =
      (s.masked m).storeEach writes (server.masked m) := by
  induction writes generalizing server with
  | nil => rfl
  | cons write writes ih =>
    have hstored := s.store_masked h hbody write.mount write.path write.attributes server
    have hworld : Http.Peer.masked m _ = _ := congrArg Attempt.world hstored
    unfold storeEach
    rw [List.map_cons, ih, hstored, hworld]

/-! ## Opening -/

/-- **Opening a session with the secret hidden** comes to the same. -/
theorem Opening.run_masked {o : Opening} (h : o.IsLegal) (address : String) (server : Server) :
    ((o.run address server).map (Session.masked o.mask)).lift (Http.Peer.masked o.mask) =
      o.bare.run address (server.masked o.mask) := by
  cases o with
  | known token =>
    have htoken : ∀ t ∈ some (Text.trim token),
        Http.isHeaderValue "" = Http.isHeaderValue t := by
      rintro t ⟨⟩
      exact h.symm
    unfold run bare Session.withToken
    simp only
    rw [Attempt.map_telling fun s : Session =>
      Log.event .debug .vault s!"Vault token verified against {s.address}"]
    · rw [Attempt.map_map, Attempt.lift_telling, Attempt.lift_map, sendChecked_masked htoken]
      rfl
    · exact fun _ => rfl
  | login mount role jwt =>
    unfold run bare Session.login
    simp only
    rw [Attempt.map_map, Attempt.lift_map, Attempt.lift_telling]
    refine congrArg (fun granted : Attempt Cause Server Grant => (granted.telling _).map _) ?_
    refine (Attempt.lift_andThen fun response server => ?_).trans
      (congrArg (Attempt.andThen · _) (sendChecked_masked (by simp) ..))
    split <;> rfl

/-- The token of a session may stand in a header just if what hides it may. -/
theorem Opening.isHeaderValue_mask {o : Opening} (h : o.IsLegal) {address : String}
    {server : Server} {s : Session} (hs : (o.run address server).result = .ok s) :
    Http.isHeaderValue (o.mask.token s.token) = Http.isHeaderValue s.token := by
  cases o with
  | known token =>
    obtain ⟨_, -, -, htoken⟩ := run_checked hs
    rw [htoken]
    exact h.symm
  | login mount role jwt => rfl

end

/-! ## Conversations -/

/-- A transcript with the secret hidden is that of the opening without its secret. -/
theorem transcript_masked {o : Opening} (h : o.IsLegal) (address : String)
    (writes : List StoredCredential) (server : Server) :
    (transcript address o writes server).masked o.mask =
      transcript address o.bare writes (server.masked o.mask) := by
  have hopened := o.run_masked h address server
  have hbody (attributes : Attributes) : o.mask.body (.data attributes) = .data attributes := by
    cases o <;> rfl
  unfold transcript
  rw [← hopened]
  simp only [Attempt.lift, Attempt.map]
  cases hs : (o.run address server).result with
  | error failure =>
    simp only [Transcript.masked, Attempt.lift, Attempt.map, hs]
    rfl
  | ok s =>
    have hstored := s.storeEach_masked (o.isHeaderValue_mask h hs) hbody writes
      (o.run address server).world
    simp only [Transcript.masked, Attempt.lift, Attempt.map, hs]
    rw [hstored]
    rfl

/-- **Conversations that differ only in the secret come to the same**, but for the secret: all that
was opened, stored, told and asked is equal with the mask on, and the sessions are shown alike. -/
theorem transcript_alike {o other : Opening} (h : o.Alike other) (address : String)
    (writes : List StoredCredential) (server : Server) :
    (transcript address o writes server).masked o.mask =
      (transcript address other writes server).masked o.mask := by
  cases h with
  | @known token other h h' =>
    have hbare (value : String) (h : Http.isHeaderValue (Text.trim value) = true) :=
      transcript_masked (o := .known value) h address writes server
    exact (hbare token h).trans (hbare other h').symm
  | @login mount role jwt other =>
    have hbare (proof : String) :=
      transcript_masked (o := .login mount role proof) trivial address writes server
    exact (hbare jwt).trans (hbare other).symm

/-- A vault that points elsewhere once, grants a token if it is asked for one, and refuses the second
request to store. -/
def wavering : Server :=
  ⟨.working, .joined, [.respond ⟨307, [], some "/v1/elsewhere"⟩,
    .respond ⟨200, Text.Utf8.encode "\x7b\"auth\":\x7b\"client_token\":\"s\"\x7d\x7d".toList, none⟩,
    .respond ⟨200, [], none⟩, .respond ⟨403, [], none⟩], []⟩

theorem transcript_alike_wavering :
    let writes : List StoredCredential := [⟨"secret", "a", .empty⟩, ⟨"secret", "b", .empty⟩]
    let heard (opening : Opening) :=
      (transcript "http://vault:8200" opening writes wavering).masked opening.mask
    heard (.known "s.one") = heard (.known " s.two\n") ∧
      heard (.login "kubernetes" "writer" "eyJ") = heard (.login "kubernetes" "writer" "") := by
  intro writes heard
  have hlegal : Http.isHeaderValue (Text.trim "s.one") = true := by decide
  have hlegal' : Http.isHeaderValue (Text.trim " s.two\n") = true := by decide
  exact ⟨transcript_alike (.known hlegal hlegal') "http://vault:8200" writes wavering,
    transcript_alike .login "http://vault:8200" writes wavering⟩

end CredentialRelay.Vault
