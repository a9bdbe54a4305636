import CredentialRelay.Cycle.Memory
import CredentialRelay.Proofs.Http.Chain
import CredentialRelay.Proofs.Url.Origin
import CredentialRelay.Proofs.Vault.Opening

/-!
# Where the token goes

Every request of a session is for a URL behind the configured address, so it goes to the vault that
the address names. A response may send it elsewhere, and the token goes along: it leaves the vault
exactly if a response to a request that carries it points to another origin and is followed.

* `converse`: a session is opened, and attributes are stored through it one after another, whatever
  comes of each.
* `Sends origin before after`: what is sent begins with requests for `origin`.

Results:
* `origin_of_make`: a request behind an address goes to the origin of the address.
* `converse_sends`: all that the vault is asked begins with such requests.
* `token_stays_iff`: when the token stays with the vault.
* `token_elsewhere`: a vault that points elsewhere, and the token goes there.
-/

namespace CredentialRelay.Vault

variable {origin : Url.Origin} {before between after server : Server}

/-- Stores attributes one after another. -/
def storeAll (s : Session) : List StoredCredential → Server → Server
  | [], server => server
  | write :: writes, server =>
    storeAll s writes (s.store write.mount write.path write.attributes server).world

/-- Opens a session and, if that succeeds, stores attributes through it. -/
def converse (address : String) (opening : Opening) (writes : List StoredCredential)
    (server : Server) : Server :=
  let opened := opening.run address server
  match opened.result with
  | .ok session => storeAll session writes opened.world
  | .error _ => opened.world

/-! ## Requests -/

/-- What a server has become by requests for `origin` and what came of them. -/
def Sends (origin : Url.Origin) (before after : Server) : Prop :=
  ∃ sent : List (Http.Sent Body before.locate), (∀ s ∈ sent, s.first.url.origin = origin) ∧
    Http.Extends before after (sent.flatMap Http.Sent.followed) (sent.flatMap Http.Sent.asked)

theorem Sends.refl (origin : Url.Origin) (server : Server) : Sends origin server server :=
  ⟨[], fun _ h => absurd h List.not_mem_nil, Http.Extends.refl server⟩

theorem Sends.trans (h : Sends origin before between) (h' : Sends origin between after) :
    Sends origin before after := by
  obtain ⟨sent, horigin, hextends⟩ := h
  unfold Sends at h'
  rw [hextends.locate] at h'
  obtain ⟨sent', horigin', hextends'⟩ := h'
  refine ⟨sent ++ sent', fun s hs => ?_, ?_⟩
  · exact (List.mem_append.mp hs).elim (horigin s) (horigin' s)
  · rw [List.flatMap_append, List.flatMap_append]
    exact hextends.trans hextends'

/-- **A request behind an address goes to the origin of the address.** -/
theorem origin_of_make {address rest : String} {base : Url} {method : Http.Method}
    {token : Option String} {body : Option Body} {request : Http.Request Body}
    (hbase : Url.parse address = .ok base)
    (h : Http.Request.make method (Text.trimEndSlashes address ++ "/" ++ rest) token body =
      .ok request) : request.url.origin = base.origin := by
  obtain ⟨url, hurl, hsend, -, rfl⟩ := Http.make_ok h
  exact (Url.origin_withoutUser url).trans
    (Url.origin_of_parse hbase hurl (Http.isSpecial_of_isSendable hsend))

/-- Sending begins with a request for the origin of the address. -/
theorem send_sends {address rest : String} {base : Url} (hbase : Url.parse address = .ok base)
    (purpose : Cause) (method : Http.Method) (token : Option String) (body : Option Body)
    (server : Server) :
    Sends base.origin server
      (send purpose method (Text.trimEndSlashes address ++ "/" ++ rest) token body server).world := by
  obtain ⟨sent, hfirst, hextends⟩ := send_sent purpose method
    (Text.trimEndSlashes address ++ "/" ++ rest) token body server
  refine ⟨sent, fun s hs => ?_, hextends⟩
  rcases hfirst with hfirst | ⟨-, rfl⟩
  · have hmem := List.mem_map_of_mem (f := Http.Sent.first) hs
    rw [hfirst, Option.mem_toList] at hmem
    exact origin_of_make hbase (toOption_eq_some_iff.mp hmem)
  · cases hs

/-! ## Sessions -/

theorem urlOf_eq (address path : String) :
    Session.urlOf address path = address ++ "/" ++ ("v1/" ++ Text.trimStartSlashes path) := by
  unfold Session.urlOf
  rw [← String.toList_inj]
  simp

/-- Opening a session begins with a request for the address. -/
theorem opening_sends {address : String} {base : Url} (hbase : Url.parse address = .ok base)
    (opening : Opening) (server : Server) :
    Sends base.origin server (opening.run address server).world := by
  rw [Opening.world_run]
  cases opening with
  | known token =>
    rw [Opening.url, urlOf_eq]
    exact send_sends hbase ..
  | login mount role jwt =>
    have hurl : Text.trimEndSlashes address ++ "/v1/auth/" ++ Text.trimSlashes mount ++ "/login" =
        Text.trimEndSlashes address ++ "/" ++ ("v1/auth/" ++ Text.trimSlashes mount ++ "/login") := by
      rw [← String.toList_inj]
      simp
    rw [Opening.url, hurl]
    exact send_sends hbase ..

/-- Storing begins with a request for the address. -/
theorem store_sends {address : String} {base : Url} (hbase : Url.parse address = .ok base)
    {s : Session} (hs : s.address = Text.trimEndSlashes address) (write : StoredCredential)
    (server : Server) :
    Sends base.origin server
      (s.store write.mount write.path write.attributes server).world := by
  rw [Session.world_store, Session.storeUrl, urlOf_eq, hs]
  exact send_sends hbase ..

theorem storeAll_sends {address : String} {base : Url} (hbase : Url.parse address = .ok base)
    {s : Session} (hs : s.address = Text.trimEndSlashes address) (writes : List StoredCredential) :
    ∀ server, Sends base.origin server (storeAll s writes server) := by
  induction writes with
  | nil => exact Sends.refl _
  | cons write writes ih => exact fun server => (store_sends hbase hs write server).trans (ih _)

/-- **All that the vault is asked begins with requests for the address.** -/
theorem converse_sends {address : String} {base : Url} (hbase : Url.parse address = .ok base)
    (opening : Opening) (writes : List StoredCredential) (server : Server) :
    Sends base.origin server (converse address opening writes server) := by
  have hopening := opening_sends hbase opening server
  unfold converse
  simp only
  cases hs : (opening.run address server).result with
  | error failure => exact hopening
  | ok s => exact hopening.trans (storeAll_sends hbase (Opening.address_of_run hs) writes _)

/-! ## The token -/

/-- **When the token stays with the vault.** A session with the vault at an address is opened, and
attributes are stored through it. What the vault is asked are the chains of requests for the origin
of the address. All requests that carry the token go there exactly if no response to one of them that
was followed points to another origin. -/
theorem token_stays_iff {address : String} {base : Url} (hbase : Url.parse address = .ok base)
    (opening : Opening) (writes : List StoredCredential) (server : Server) :
    ∃ sent : List (Http.Sent Body server.locate),
      (∀ s ∈ sent, s.first.url.origin = base.origin) ∧
      Http.Extends server (converse address opening writes server)
        (sent.flatMap Http.Sent.followed) (sent.flatMap Http.Sent.asked) ∧
      ((∀ request ∈ sent.flatMap Http.Sent.asked,
          request.token.isSome = true → request.url.origin = base.origin) ↔
        ∀ hop ∈ sent.flatMap Http.Sent.followed,
          hop.request.token.isSome = true → hop.StaysAt server.locate base.origin) := by
  obtain ⟨sent, horigin, hextends⟩ := converse_sends hbase opening writes server
  refine ⟨sent, horigin, hextends, ?_⟩
  constructor
  · intro hall hop hhop
    obtain ⟨s, hs, hhop⟩ := List.mem_flatMap.mp hhop
    refine (s.chain.token_iff (horigin s hs)).mp (fun request hrequest => ?_) hop hhop
    exact hall request (List.mem_flatMap.mpr ⟨s, hs, hrequest⟩)
  · intro hall request hrequest
    obtain ⟨s, hs, hrequest⟩ := List.mem_flatMap.mp hrequest
    refine (s.chain.token_iff (horigin s hs)).mpr (fun hop hhop => ?_) request hrequest
    exact hall hop (List.mem_flatMap.mpr ⟨s, hs, hhop⟩)

/-- A vault that points to another host, and the request there with a success. -/
def pointingAway : Server :=
  ⟨.working, .joined, [.respond ⟨307, [], some "http://elsewhere/v1/auth/token/lookup-self"⟩,
    .respond ⟨200, [], none⟩], []⟩

theorem token_stays_iff_pointingAway :
    ∃ base, Url.parse "http://vault:8200" = .ok base ∧
      ∃ sent : List (Http.Sent Body .joined),
        (converse "http://vault:8200" (.known "t") [] pointingAway).asked =
          sent.flatMap Http.Sent.asked ∧
        ((∀ request ∈ sent.flatMap Http.Sent.asked,
            request.token.isSome = true → request.url.origin = base.origin) ↔
          ∀ hop ∈ sent.flatMap Http.Sent.followed,
            hop.request.token.isSome = true → hop.StaysAt .joined base.origin) := by
  have hbase : Url.parse "http://vault:8200" =
      .ok ⟨"http", "", none, some (.name "vault"), some 8200, .segments [""], none, none⟩ := by
    decide
  obtain ⟨sent, -, hextends, hiff⟩ := token_stays_iff hbase (.known "t") [] pointingAway
  exact ⟨_, hbase, sent, hextends.asked, hiff⟩

/-- **The token goes elsewhere** when the vault points there: the request to another host carries
it. -/
theorem token_elsewhere :
    ∃ base, Url.parse "http://vault:8200" = .ok base ∧
      ∃ request ∈ (converse "http://vault:8200" (.known "t") [] pointingAway).asked,
        request.token = some "t" ∧ request.url.origin ≠ base.origin := by
  let elsewhere : Url := ⟨"http", "", none, some (.name "elsewhere"), none,
    .segments ["v1", "auth", "token", "lookup-self"], none, none⟩
  exact ⟨⟨"http", "", none, some (.name "vault"), some 8200, .segments [""], none, none⟩,
    by decide, ⟨.get, elsewhere, some "t", none⟩, by decide, rfl, by decide⟩

end CredentialRelay.Vault
