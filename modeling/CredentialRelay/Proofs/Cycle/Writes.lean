import CredentialRelay.Cycle.Remote
import CredentialRelay.Proofs.Cycle.Calls
import CredentialRelay.Proofs.Vault.Session

/-!
# What storing entries asks the vault

Every entry that is to be stored begins one chain of requests, in the order of the entries and
whatever came of those before it. Nothing else is asked of the vault, and nothing of the cluster.

* `Session.request?`: the request that stores a credential, if one can be made.

Results:
* `storeEntry_world`: an entry that is not to be stored asks nothing.
* `storeEntries_sent`: the vault is asked the chains of the planned requests.
-/

namespace CredentialRelay

namespace Vault.Session

variable {s : Session}

/-- The request that stores a credential, if one can be made. -/
def request? (s : Session) (write : StoredCredential) : Option (Http.Request Body) :=
  (Http.Request.make .post (s.storeUrl write.mount write.path) (some s.token)
    (some (.data write.attributes))).toOption

/-- The request that stores a credential has the token of the session. -/
theorem token_of_request? {write : StoredCredential} {request : Http.Request Body}
    (h : s.request? write = some request) : request.token = some s.token := by
  obtain ⟨url, -, -, -, rfl⟩ := Http.make_ok (toOption_eq_some_iff.mp h)
  rfl

/-- **Storing a credential asks for its request**, and for what follows from it. -/
theorem store_sent {server : Server} (hlink : server.link = .working) (s : Session)
    (write : StoredCredential) :
    ∃ sent : List (Http.Sent Body server.locate),
      sent.map Http.Sent.first = (s.request? write).toList ∧
      Http.Extends server (s.store write.mount write.path write.attributes server).world
        (sent.flatMap Http.Sent.followed) (sent.flatMap Http.Sent.asked) := by
  rw [world_store]
  obtain ⟨sent, hfirst | ⟨hunreachable, -⟩, hextends⟩ := send_sent
    (.writing (Text.trimSlashes write.mount) (Text.trimSlashes write.path)) .post
    (s.storeUrl write.mount write.path) (some s.token) (some (.data write.attributes)) server
  · exact ⟨sent, hfirst, hextends⟩
  · rw [hlink] at hunreachable
    cases hunreachable

end Vault.Session

namespace Cycle

variable {σ ν : Type}

/-- What working on an entry does to the world: what storing its credential does, if it is to be
stored. -/
theorem storeEntry_world (services : Services σ ν) (session : ν) (mount key value : String)
    (w : σ) :
    (storeEntry services session mount key value w).2 = (planned? mount (key, value)).elim w
      fun write => (services.store session write.mount write.path write.attributes w).world := by
  unfold storeEntry planned?
  cases hkind : Credential.Kind.ofKey? key with
  | none => rfl
  | some kind =>
    cases hparse : Credential.parse kind value with
    | error fault =>
      simp only [Option.bind_some, hparse]
      rfl
    | ok credential =>
      simp only [Option.bind_some, hparse]
      show _ = (services.store session mount credential.path credential.attributes w).world
      cases (services.store session mount credential.path credential.attributes w).result <;> rfl

/-- Working on an entry asks for the planned request, and nothing of the cluster. -/
theorem storeEntry_sent (config : VaultConfig) (session : Vault.Session)
    (mount key value : String) {s : Surroundings} (hlink : s.vault.link = .working) :
    ∃ sent : List (Http.Sent Vault.Body s.vault.locate),
      sent.map Http.Sent.first = ((planned? mount (key, value)).bind session.request?).toList ∧
      Http.Extends s.vault
        (storeEntry (Surroundings.services config) session mount key value s).2.vault
        (sent.flatMap Http.Sent.followed) (sent.flatMap Http.Sent.asked) ∧
      (storeEntry (Surroundings.services config) session mount key value s).2.cluster =
        s.cluster := by
  rw [storeEntry_world]
  cases planned? mount (key, value) with
  | none => exact ⟨[], rfl, Http.Extends.refl _, rfl⟩
  | some write =>
    obtain ⟨sent, hfirst, hextends⟩ := session.store_sent hlink write
    exact ⟨sent, hfirst, hextends, rfl⟩

/-- **The vault is asked the chains of the planned requests**, in the order of the entries, whatever
it answers. -/
theorem storeEntries_sent (config : VaultConfig) (session : Vault.Session) (mount : String) :
    ∀ (entries : List (String × String)) {s : Surroundings}, s.vault.link = .working →
      ∃ sent : List (Http.Sent Vault.Body s.vault.locate),
        sent.map Http.Sent.first =
          (entries.filterMap (planned? mount)).filterMap session.request? ∧
        Http.Extends s.vault
          (storeEntries (Surroundings.services config) session mount entries s).2.vault
          (sent.flatMap Http.Sent.followed) (sent.flatMap Http.Sent.asked) ∧
        (storeEntries (Surroundings.services config) session mount entries s).2.cluster = s.cluster
  | [], s, _ => ⟨[], rfl, Http.Extends.refl _, rfl⟩
  | (key, value) :: entries, s, hlink => by
    obtain ⟨sent, hfirst, hextends, hcluster⟩ :=
      storeEntry_sent config session mount key value hlink
    have ih := storeEntries_sent config session mount entries (hextends.link.trans hlink)
    rw [hextends.locate] at ih
    obtain ⟨more, hmore, hrest, hsame⟩ := ih
    refine ⟨sent ++ more, ?_, ?_, hsame.trans hcluster⟩
    · rw [List.map_append, hfirst, hmore, List.filterMap_cons]
      cases planned? mount (key, value) with
      | none => rfl
      | some write =>
        rw [List.filterMap_cons, Option.bind_some]
        cases session.request? write <;> rfl
    · rw [List.flatMap_append, List.flatMap_append]
      exact hextends.trans hrest

end Cycle

end CredentialRelay
