import CredentialRelay.Proofs.Vault.Session
import Mathlib.Control.Monad.Basic

/-!
# Acknowledged writes

Storing looks only at the response that comes back in the end. When the vault answers with 301, 302
or 303, that is the response to a `GET` without a body, and its success says nothing about the
attributes: they were sent, and nobody took them.

* `Writes attributes hop`: the request of the hop carries the attributes to the vault in a `POST`.

Results:
* `acknowledged_iff`: what was stored was written by the request that got the last response exactly
  if no response that was followed turned the request into a `GET`.
* `acknowledged_by_get`: such an acknowledgement is given.
-/

namespace CredentialRelay.Vault

/-- A request that carries attributes to the vault, with the response that it got. -/
def Writes (attributes : Attributes) (hop : Http.Hop Body) : Prop :=
  hop.request.method = .post ∧ hop.request.body = some (.data attributes)

/-- A vault that has no replies left answers with a failure, so a success is one of its replies, and
so are the responses before it. -/
theorem answered_of_isSuccess {replies : List Http.Reply} {hops : List (Http.Hop Body)}
    {last : Http.Hop Body}
    (h : (hops ++ [last]).map (fun hop => Http.Reply.respond hop.response) <+:
      replies ++ [.respond Http.exhausted])
    (hs : Http.isSuccess last.response.status = true) :
    (hops ++ [last]).map (fun hop => Http.Reply.respond hop.response) <+: replies := by
  rcases List.prefix_concat_iff.mp h with heq | hprefix
  · rw [List.map_append] at heq
    obtain ⟨-, hlast⟩ := List.append_inj' heq rfl
    have : last.response = Http.exhausted := by simpa using hlast
    rw [this] at hs
    cases hs
  · exact hprefix

/-- **When an acknowledged write is one.** Attributes that were stored left a trail of hops from the
`POST` that carries them. The requests are what the vault was asked, the responses are its replies,
and the last response is a success. It is the response to a request that carries the attributes
exactly if no response on the way turned the request; otherwise it is the response to a `GET`
without a body. -/
theorem acknowledged_iff {s : Session} {mount path : String} {attributes : Attributes}
    {server : Server} (h : (s.store mount path attributes server).result = .ok ()) :
    ∃ first followed last,
      Http.Request.make .post (s.storeUrl mount path) (some s.token)
        (some (Body.data attributes)) = .ok first ∧
      Http.Trail server.locate first followed last ∧
      (s.store mount path attributes server).world.asked =
        server.asked ++ (followed ++ [last]).map Http.Hop.request ∧
      (followed ++ [last]).map (fun hop => .respond hop.response) <+: server.replies ∧
      Http.isSuccess last.response.status = true ∧
      (Writes attributes last ↔ Http.Trail.turned followed = false) ∧
      (¬ Writes attributes last ↔ last.request.method = .get ∧ last.request.body = none) := by
  obtain ⟨first, response, hmade, hexchange, hsuccess, hworld⟩ := Session.store_ok h
  obtain ⟨followed, last, htrail, rfl, -, hasked, hreplies⟩ := Http.follow_trail hexchange
  obtain ⟨url, -, -, -, rfl⟩ := Http.make_ok hmade
  have hkept : Http.Trail.turned followed = false → Writes attributes last := htrail.last_kept
  have hlost := htrail.last_lost
  have hget : last.request.method = .get ∧ last.request.body = none → ¬ Writes attributes last :=
    fun hg hw => by
      have hmethod := hg.1.symm.trans hw.1
      cases hmethod
  refine ⟨_, followed, last, hmade, htrail, ?_, answered_of_isSuccess hreplies hsuccess,
    hsuccess, ⟨fun hw => ?_, hkept⟩, ⟨fun hw => ?_, hget⟩⟩
  · rw [hworld]
    exact hasked
  · exact Bool.eq_false_iff.mpr fun hturned => hget (hlost hturned) hw
  · exact hlost (eq_true_of_ne_false fun hturned => hw (hkept hturned))

/-! ## A vault that points elsewhere -/

/-- A session for the two theorems below. -/
def sampleSession : Session := ⟨"http://vault:8200", "t"⟩

/-- A vault that answers a write by pointing elsewhere, and the request there with a success. -/
def pointingElsewhere : Server :=
  ⟨.working, .joined, [.respond ⟨302, [], some "/ui"⟩, .respond ⟨200, [], none⟩], []⟩

/-- The vault that points elsewhere acknowledges a write, which therefore left a trail. -/
theorem acknowledged_iff_pointingElsewhere :
    let stored := sampleSession.store "secret" "certs/web/tls1" Dictionary.empty pointingElsewhere
    stored.result = .ok () ∧
      ∃ first followed last,
        Http.Trail .joined first followed last ∧
        stored.world.asked = (followed ++ [last]).map Http.Hop.request ∧
        (Writes Dictionary.empty last ↔ Http.Trail.turned followed = false) := by
  intro stored
  have h : stored.result = .ok () := by decide
  obtain ⟨first, followed, last, -, htrail, hasked, -, -, hiff, -⟩ := acknowledged_iff h
  exact ⟨h, first, followed, last, htrail, hasked, hiff⟩

/-- **An acknowledged write that is none.** The vault is asked twice, and its success is the
response to a `GET` without a body. -/
theorem acknowledged_by_get :
    let attributes : Attributes := Dictionary.ofList [("ca.pem", "A")]
    let stored := sampleSession.store "secret" "certs/web/tls1" attributes pointingElsewhere
    stored.result = .ok () ∧
      ∃ request, stored.world.asked.getLast? = some request ∧
        request.method = .get ∧ request.body = none := by
  refine ⟨by decide, ?_⟩
  exact ⟨⟨.get, ⟨"http", "", none, some (.name "vault"), some 8200, .segments ["ui"], none, none⟩,
    some "t", none⟩, by decide, rfl, rfl⟩

end CredentialRelay.Vault
