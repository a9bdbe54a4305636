import CredentialRelay.Proofs.Json.Naturals
import CredentialRelay.Proofs.Json.Positions
import CredentialRelay.Proofs.Json.Soundness
import CredentialRelay.Proofs.Vault.Token

/-!
# What a login has to be answered with

A login opens a session exactly if the last response to it is a success and its body is a JSON text
that grants a token. The token of the session is the one that is granted, and every request that
stores something through the session carries it. Only that the token is no empty text is not asked,
and a vault that grants the empty one leaves a session that is good for nothing.

* `TellsGrant v grant`: the value says what is granted.
* `TellsLogin v grant`: the value is a response to a login that says so.
* `Answers address mount role jwt server v`: the vault answers a login with the value.
* `Carries token before after`: all that was asked in between carries the token.

Results:
* `grantMeaning_iff`, `loginMeaning_iff`: what is read of a value is what it says is granted.
* `readGrant_ok_iff`: when the body of a response is read as a grant.
* `storeAll_carries`: what is stored through a session is asked with its token.
* `login_usable_iff`: when a login opens a session, and when the session is usable.
* `login_without_token`: a login that opens a session with an empty token.
-/

namespace CredentialRelay.Vault

open Json

/-! ## What a response says -/

/-- A value says what is granted: it is an object of members with names, whose only `client_token` is
a string and whose only `lease_duration`, if there is one, is a natural number of 64 bits. It may
also be a list of the two, of which the second may be left out. -/
def TellsGrant (v : Value) (grant : Grant) : Prop :=
  match v with
  | .bracketed .object items =>
    (∀ v, (none, v) ∉ items.members) ∧
      items.members.Gives "client_token" Value.string? grant.token ∧
      items.members.GivesOr "lease_duration" (Value.natural? Word.size64) 0 grant.lease
  | .bracketed .list items =>
    (∃ v, items.values = [v] ∧ v.string? = some grant.token ∧ grant.lease = 0) ∨
      ∃ v w, items.values = [v, w] ∧ v.string? = some grant.token ∧
        w.natural? Word.size64 = some grant.lease
  | .scalar _ => False

/-- A value is a response to a login that says what is granted: an object of members with names, whose
only `auth` says so, or a list of that. -/
def TellsLogin (v : Value) (grant : Grant) : Prop :=
  match v with
  | .bracketed .object items =>
    (∀ v, (none, v) ∉ items.members) ∧
      ∃ v, items.members.valuesOf "auth" = [v] ∧ TellsGrant v grant
  | .bracketed .list items => ∃ v, items.values = [v] ∧ TellsGrant v grant
  | .scalar _ => False

/-! ## Grants that are read -/

/-- What the fields of a grant mean. -/
def grantMeans (field : Member Grant) (grant : Grant) (v : Value) : Option Grant :=
  if field.name = "client_token" then v.string?.map fun token => { grant with token }
  else (v.natural? Word.size64).map fun lease => { grant with lease }

/-- What a value means as a grant. -/
def grantMeaning : Value → Option Grant :=
  grantShape.meaning grantMeans ⟨"", 0⟩

/-- What a value means as a response to a login. -/
def loginMeaning : Value → Option Grant :=
  loginShape.meaning (fun _ _ => grantMeaning) ⟨"", 0⟩

/-- A grant with what members say of it. -/
def grantOf (grant : Grant) (ms : Members) : Grant where
  token := ms.getD "client_token" Value.string? grant.token
  lease := ms.getD "lease_duration" (Value.natural? Word.size64) grant.lease

theorem grantFields_means :
    ∀ field ∈ grantShape.fields, ∀ grant, Means (field.read grant) (grantMeans field grant) := by
  simp only [grantShape, List.forall_mem_cons]
  exact ⟨fun grant => text_means.map fun token => { grant with token },
    fun grant => (natural_means "u64" (Nat.le_refl _)).map fun lease => { grant with lease },
    List.forall_mem_nil _⟩

/-- Whether a value is taken for a field of a grant. -/
def takesGrant (name : String) (v : Value) : Bool :=
  if name = "client_token" then v.string?.isSome else (v.natural? Word.size64).isSome

theorem isSome_grantMeans (field : Member Grant) (grant : Grant) (v : Value) :
    (grantMeans field grant v).isSome = takesGrant field.name v := by
  unfold grantMeans takesGrant
  split <;> exact Option.isSome_map

theorem grantOf_cons : ∀ field ∈ grantShape.fields, ∀ grant v other ms,
    grantMeans field grant v = some other → some field.name ∉ ms.map Prod.fst →
      grantOf grant ((some field.name, v) :: ms) = grantOf other ms := by
  simp only [grantShape, List.forall_mem_cons]
  refine ⟨?_, ?_, List.forall_mem_nil _⟩ <;>
  · intro grant v other ms hv hms
    obtain ⟨value, hvalue, rfl⟩ := Option.map_eq_some_iff.mp hv
    simp [grantOf, Members.getD_cons, Members.getD_absent hms, hvalue]

theorem grantShape_builds : grantShape.Builds takesGrant grantOf where
  unique := rfl
  required := by decide
  start _ := rfl
  passed grant name v ms hname := by
    simp [Shape.names, grantShape] at hname
    simp [grantOf, Members.getD_cons, hname]
  fills field hfield := ⟨grantMeans field, grantFields_means field hfield,
    isSome_grantMeans field, grantOf_cons field hfield⟩

/-- What the elements of a list mean as a grant. -/
theorem fill_grant_iff {grant : Grant} (vs : List Value) :
    grantShape.fill grantMeans grantShape.fields ⟨"", 0⟩ vs = some grant ↔
      (∃ v, vs = [v] ∧ v.string? = some grant.token ∧ grant.lease = 0) ∨
        ∃ v w, vs = [v, w] ∧ v.string? = some grant.token ∧
          w.natural? Word.size64 = some grant.lease := by
  obtain ⟨token, lease⟩ := grant
  match vs with
  | [] => simp [grantShape, Shape.fill]
  | [v] =>
    cases hv : v.string? <;> simp [grantShape, Shape.fill, grantMeans, hv, eq_comm]
  | [v, w] =>
    cases hv : v.string? <;> cases hw : w.natural? Word.size64 <;>
      simp [grantShape, Shape.fill, grantMeans, hv, hw]
  | v :: w :: x :: vs =>
    cases hv : v.string? <;> cases hw : w.natural? Word.size64 <;>
      simp [grantShape, Shape.fill, grantMeans, hv, hw]

/-- **A value means a grant exactly if it says what is granted.** -/
theorem grantMeaning_iff {v : Value} {grant : Grant} :
    grantMeaning v = some grant ↔ TellsGrant v grant := by
  match v with
  | .scalar s => exact iff_of_false nofun id
  | .bracketed .list items => exact fill_grant_iff items.values
  | .bracketed .object items =>
    show grantShape.meaning grantMeans ⟨"", 0⟩ (.bracketed .object items) = some grant ↔
      (∀ v, (none, v) ∉ items.members) ∧
        items.members.Gives "client_token" Value.string? grant.token ∧
        items.members.GivesOr "lease_duration" (Value.natural? Word.size64) 0 grant.lease
    obtain ⟨token, lease⟩ := grant
    rw [grantShape_builds.meaning_object (fun field _ => isSome_grantMeans field) grantOf_cons,
      Members.sound_iff, Members.gives_iff "", Members.givesOr_iff, Members.givesOr_iff]
    simp only [Shape.names, Shape.Complete, grantShape, grantOf, takesGrant, List.map_cons,
      List.map_nil, List.forall_mem_cons, List.not_mem_nil, false_implies, implies_true, and_true,
      if_true, if_false, String.reduceEq, Grant.mk.injEq]
    constructor
    · rintro ⟨⟨hnamed, ⟨htokens, htoken⟩, hleases, hlease⟩, hgiven, rfl, rfl⟩
      exact ⟨hnamed, ⟨⟨htokens, htoken, rfl⟩, hgiven⟩, hleases, hlease, rfl⟩
    · rintro ⟨hnamed, ⟨⟨htokens, htoken, rfl⟩, hgiven⟩, hleases, hlease, rfl⟩
      exact ⟨⟨hnamed, ⟨htokens, htoken⟩, hleases, hlease⟩, hgiven, rfl, rfl⟩

/-! ## Responses to logins -/

/-- What members say that is granted. -/
def loginOf (grant : Grant) (ms : Members) : Grant :=
  ms.getD "auth" grantMeaning grant

theorem loginOf_cons : ∀ field ∈ loginShape.fields, ∀ grant v other ms,
    grantMeaning v = some other → some field.name ∉ ms.map Prod.fst →
      loginOf grant ((some field.name, v) :: ms) = loginOf other ms := by
  simp only [loginShape, List.forall_mem_cons]
  refine ⟨fun grant v other ms hv hms => ?_, List.forall_mem_nil _⟩
  simp [loginOf, Members.getD_cons, Members.getD_absent hms, hv]

theorem loginFields_means :
    ∀ field ∈ loginShape.fields, ∀ grant, Means (field.read grant) grantMeaning := by
  simp only [loginShape, List.forall_mem_cons]
  exact ⟨fun _ => Shape.read_means grantFields_means _, List.forall_mem_nil _⟩

theorem loginShape_builds :
    loginShape.Builds (fun _ v => (grantMeaning v).isSome) loginOf where
  unique := rfl
  required := by decide
  start _ := rfl
  passed grant name v ms hname := by
    simp [Shape.names, loginShape] at hname
    simp [loginOf, Members.getD_cons, hname]
  fills field hfield := ⟨fun _ => grantMeaning, loginFields_means field hfield, fun _ _ => rfl,
    loginOf_cons field hfield⟩

/-- **A value means a response to a login exactly if it says what is granted.** -/
theorem loginMeaning_iff {v : Value} {grant : Grant} :
    loginMeaning v = some grant ↔ TellsLogin v grant := by
  match v with
  | .scalar s => exact iff_of_false nofun id
  | .bracketed .list items =>
    show loginShape.fill (fun _ _ => grantMeaning) loginShape.fields ⟨"", 0⟩ items.values =
      some grant ↔ ∃ v, items.values = [v] ∧ TellsGrant v grant
    simp only [← grantMeaning_iff]
    match items.values with
    | [] => simp [loginShape, Shape.fill]
    | [v] => cases hv : grantMeaning v <;> simp [loginShape, Shape.fill, hv]
    | v :: w :: vs => cases hv : grantMeaning v <;> simp [loginShape, Shape.fill, hv]
  | .bracketed .object items =>
    show loginShape.meaning (fun _ _ => grantMeaning) ⟨"", 0⟩ (.bracketed .object items) =
      some grant ↔ (∀ v, (none, v) ∉ items.members) ∧
        ∃ v, items.members.valuesOf "auth" = [v] ∧ TellsGrant v grant
    simp only [← grantMeaning_iff]
    show _ ↔ _ ∧ items.members.Gives "auth" grantMeaning grant
    rw [loginShape_builds.meaning_object (fun _ _ _ _ => rfl) loginOf_cons, Members.sound_iff,
      Members.gives_iff ⟨"", 0⟩, Members.givesOr_iff]
    simp only [Shape.names, Shape.Complete, loginShape, loginOf, List.map_cons, List.map_nil,
      List.forall_mem_cons, List.not_mem_nil, false_implies, implies_true, and_true]
    constructor
    · rintro ⟨⟨hnamed, hgrants, hgrant⟩, hgiven, rfl⟩
      exact ⟨hnamed, ⟨hgrants, hgrant, rfl⟩, hgiven⟩
    · rintro ⟨hnamed, ⟨hgrants, hgrant, rfl⟩, hgiven⟩
      exact ⟨⟨hnamed, hgrants, hgrant⟩, hgiven, rfl⟩

/-! ## Bodies -/

theorem login_spells : Spells (loginShape.read ⟨"", 0⟩) := by
  refine Shape.read_spells ?_ _
  simp only [loginShape, List.forall_mem_cons]
  refine ⟨fun _ => Shape.read_spells ?_ _, List.forall_mem_nil _⟩
  simp only [grantShape, List.forall_mem_cons]
  exact ⟨fun grant => text_spells.map fun token => { grant with token },
    fun grant => (numberAs_spells _ _).map fun lease => { grant with lease },
    List.forall_mem_nil _⟩

variable {body : List UInt8} {v : Value} {grant : Grant}

/-- **When the body of a response is read as a grant.** -/
theorem readGrant_ok_iff :
    readGrant body = .ok grant ↔ ∃ v, Holds (markedText body) v ∧ TellsLogin v grant := by
  unfold readGrant
  rw [decodeBytes_ok_iff, decode_ok_iff (Shape.read_means loginFields_means _) login_spells]
  exact exists_congr fun v => and_congr_right fun _ => loginMeaning_iff

/-- A body that holds a value is read for what that says is granted. -/
theorem readGrant_of_holds (h : Holds (markedText body) v) :
    readGrant body = .ok grant ↔ TellsLogin v grant := by
  obtain ⟨fault, hdecode⟩ := decode_holds (Shape.read_means loginFields_means ⟨"", 0⟩) h
  unfold readGrant
  rw [decodeBytes_ok_iff, hdecode, ← loginMeaning_iff]
  show orFault (loginMeaning v) fault = .ok grant ↔ _
  cases loginMeaning v with
  | none => exact iff_of_false nofun nofun
  | some other => simp [orFault]

/-! ## Logins -/

section

variable {address mount role jwt : String} {server : Server}

/-- The vault answers a login with a value: the last response is a success, and its body holds the
value and nothing else. -/
def Answers (address mount role jwt : String) (server : Server) (v : Value) : Prop :=
  let o : Opening := .login mount role jwt
  ∃ response, (send o.purpose o.method (o.url address) o.token? o.body? server).result =
      .ok response ∧
    Http.isSuccess response.status = true ∧ Holds (markedText response.body) v

/-- A login that got a success opens a session with what the body of the response grants. -/
theorem result_login {response : Http.Response}
    (hsent : (send .loggingIn .post
      (Text.trimEndSlashes address ++ "/v1/auth/" ++ Text.trimSlashes mount ++ "/login") none
      (some (.login role (Text.trim jwt))) server).result = .ok response)
    (hsuccess : Http.isSuccess response.status = true) :
    (Session.login address mount role jwt server).result =
      match readGrant response.body with
      | .ok grant => .ok ⟨Text.trimEndSlashes address, grant.token⟩
      | .error message => .error ⟨.loginUnreadable, [.http .decoding, .http (.json message)]⟩ := by
  have hchecked (server : Server) :
      (checked (.loginRefused role) response server).result = .ok response := by
    unfold checked
    rw [if_pos hsuccess]
    rfl
  have hpassed := (Attempt.result_andThen_of_ok hsent).trans (hchecked _)
  unfold Session.login
  simp only [Attempt.map, Attempt.result_telling]
  rw [Attempt.result_andThen_of_ok hpassed]
  cases readGrant response.body <;> rfl

/-- A vault that answers a login with a value that says what is granted opens a session. -/
theorem login_of_tells {v : Value} {grant : Grant} (h : Answers address mount role jwt server v)
    (htells : TellsLogin v grant) :
    (Session.login address mount role jwt server).result =
      .ok ⟨Text.trimEndSlashes address, grant.token⟩ := by
  obtain ⟨response, hsent, hsuccess, hholds⟩ := h
  rw [result_login hsent hsuccess, (readGrant_of_holds hholds).mpr htells]

/-- One that says nothing of the kind is a failure to read the response. -/
theorem login_of_not_tells {v : Value} (h : Answers address mount role jwt server v)
    (htells : ∀ grant, ¬TellsLogin v grant) :
    ∃ message, (Session.login address mount role jwt server).result =
      .error ⟨.loginUnreadable, [.http .decoding, .http (.json message)]⟩ := by
  obtain ⟨response, hsent, hsuccess, hholds⟩ := h
  rw [result_login hsent hsuccess]
  cases hread : readGrant response.body with
  | ok grant => exact absurd ((readGrant_of_holds hholds).mp hread) (htells grant)
  | error message => exact ⟨message, rfl⟩

/-- **When a login opens a session.** -/
theorem login_ok_iff {s : Session} :
    (Session.login address mount role jwt server).result = .ok s ↔
      ∃ v grant, Answers address mount role jwt server v ∧ TellsLogin v grant ∧
        s = ⟨Text.trimEndSlashes address, grant.token⟩ := by
  constructor
  · intro h
    let o : Opening := .login mount role jwt
    obtain ⟨response, hsent, hsuccess, grant, hread, htoken⟩ := Opening.run_checked (o := o) h
    obtain ⟨v, hholds, htells⟩ := readGrant_ok_iff.mp hread
    have haddress := Opening.address_of_run (o := o) h
    refine ⟨v, grant, ⟨response, hsent, hsuccess, hholds⟩, htells, ?_⟩
    rw [← haddress, ← htoken]
  · rintro ⟨v, grant, hanswers, htells, rfl⟩
    exact login_of_tells hanswers htells

end

/-! ## Later requests -/

section

variable {token : String} {before between after : Server}

/-- All that a server was asked from one state to another carries a token. -/
def Carries (token : String) (before after : Server) : Prop :=
  ∃ asked, after.asked = before.asked ++ asked ∧
    ∀ request ∈ asked, request.token = some token

theorem Carries.refl (token : String) (server : Server) : Carries token server server :=
  ⟨[], (List.append_nil _).symm, fun _ h => absurd h List.not_mem_nil⟩

theorem Carries.trans (h : Carries token before between) (h' : Carries token between after) :
    Carries token before after := by
  obtain ⟨asked, hasked, hall⟩ := h
  obtain ⟨asked', hasked', hall'⟩ := h'
  refine ⟨asked ++ asked', by rw [hasked', hasked, List.append_assoc], fun request hrequest => ?_⟩
  exact (List.mem_append.mp hrequest).elim (hall request) (hall' request)

/-- What is sent carries the token that it is sent with, wherever it is redirected to. -/
theorem send_carries (purpose : Cause) (method : Http.Method) (url token : String)
    (body : Option Body) (server : Server) :
    Carries token server (send purpose method url (some token) body server).world := by
  obtain ⟨sent, hfirst, hextends⟩ := send_sent purpose method url (some token) body server
  refine ⟨_, hextends.asked, fun request hrequest => ?_⟩
  obtain ⟨s, hs, hasked⟩ := List.mem_flatMap.mp hrequest
  rw [s.chain.token_eq.1 request hasked]
  rcases hfirst with hfirst | ⟨-, rfl⟩
  · have hmem := List.mem_map_of_mem (f := Http.Sent.first) hs
    rw [hfirst, Option.mem_toList] at hmem
    obtain ⟨parsed, -, -, -, hmade⟩ := Http.make_ok (toOption_eq_some_iff.mp hmem)
    rw [hmade]
  · cases hs

/-- **What is stored through a session is asked with its token.** -/
theorem storeAll_carries (s : Session) (writes : List StoredCredential) (server : Server) :
    Carries s.token server (storeAll s writes server) := by
  induction writes generalizing server with
  | nil => exact Carries.refl s.token server
  | cons write writes ih =>
    refine Carries.trans ?_ (ih _)
    rw [Session.world_store]
    exact send_carries ..

end

/-! ## Usable sessions -/

/-- **When a login opens a session, and when the session is usable.** There is a session exactly if
the vault answers with a value that says what is granted, and a failure if the value does not say so;
all that is stored through the session later carries the token that was granted. The session has a
token that is not empty exactly if the vault does not grant the empty one. -/
theorem login_usable_iff (address mount role jwt : String) (server : Server) :
    let opened := (Session.login address mount role jwt server).result
    (∀ s, opened = .ok s ↔ ∃ v grant, Answers address mount role jwt server v ∧
      TellsLogin v grant ∧ s = ⟨Text.trimEndSlashes address, grant.token⟩) ∧
    (∀ v, Answers address mount role jwt server v → (∀ grant, ¬TellsLogin v grant) →
      ∃ message, opened = .error ⟨.loginUnreadable, [.http .decoding, .http (.json message)]⟩) ∧
    (∀ s, opened = .ok s → ∀ writes later, Carries s.token later (storeAll s writes later)) ∧
    ((∀ s, opened = .ok s → s.token ≠ "") ↔ ∀ v grant, Answers address mount role jwt server v →
      TellsLogin v grant → grant.token ≠ "") := by
  refine ⟨fun s => login_ok_iff, fun v => login_of_not_tells,
    fun s _ writes later => storeAll_carries s writes later, fun h v grant hanswers htells => ?_,
    fun h s hs => ?_⟩
  · exact h _ (login_of_tells hanswers htells)
  · obtain ⟨v, grant, hanswers, htells, rfl⟩ := login_ok_iff.mp hs
    exact h v grant hanswers htells

/-- A vault that points elsewhere once, grants a token for an hour, and acknowledges what is stored. -/
def granting : Server :=
  ⟨.working, .joined, [.respond ⟨307, [], some "/v1/elsewhere"⟩, .respond ⟨200, Text.Utf8.encode
    "\x7b\"auth\": \x7b\"lease_duration\": 3600, \"client_token\": \"s.1\"\x7d\x7d".toList, none⟩,
    .respond ⟨200, [], none⟩], []⟩

theorem login_usable_iff_granting :
    let opened := Session.login "http://vault:8200/" "kubernetes" "writer" "eyJ\n" granting
    let s : Session := ⟨"http://vault:8200", "s.1"⟩
    opened.result = .ok s ∧
      (∃ v grant, Answers "http://vault:8200/" "kubernetes" "writer" "eyJ\n" granting v ∧
        TellsLogin v grant ∧ grant.token = "s.1") ∧
      Carries "s.1" opened.world (storeAll s [⟨"secret", "a/b/c", .empty⟩] opened.world) := by
  intro opened s
  obtain ⟨hopens, -, hcarries, -⟩ :=
    login_usable_iff "http://vault:8200/" "kubernetes" "writer" "eyJ\n" granting
  have h : opened.result = .ok s := by decide
  obtain ⟨v, grant, hanswers, htells, hs⟩ := (hopens s).mp h
  exact ⟨h, ⟨v, grant, hanswers, htells, congrArg Session.token hs.symm⟩, hcarries s h _ _⟩

/-- A vault that grants the empty token, and acknowledges what is stored with it. -/
def grantingNothing : Server :=
  ⟨.working, .joined, [.respond ⟨200, Text.Utf8.encode
    "\x7b\"auth\":\x7b\"client_token\":\"\"\x7d\x7d".toList, none⟩, .respond ⟨200, [], none⟩], []⟩

/-- **A login that opens a session with an empty token**, which is what later requests carry. -/
theorem login_without_token :
    let opened := Session.login "http://vault:8200" "kubernetes" "writer" "eyJ" grantingNothing
    let s : Session := ⟨"http://vault:8200", ""⟩
    opened.result = .ok s ∧
      ∃ request ∈ (storeAll s [⟨"secret", "a/b/c", .empty⟩] opened.world).asked,
        request.method = .post ∧ request.body = some (.data .empty) ∧ request.token = some "" := by
  let url : Url := ⟨"http", "", none, some (.name "vault"), some 8200,
    .segments ["v1", "secret", "data", "a", "b", "c"], none, none⟩
  exact ⟨by decide, ⟨.post, url, some "", some (.data .empty)⟩, by decide, rfl, rfl,
    rfl⟩

end CredentialRelay.Vault
