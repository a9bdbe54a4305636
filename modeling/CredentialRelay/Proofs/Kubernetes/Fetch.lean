import CredentialRelay.Kubernetes.Store
import CredentialRelay.Proofs.Attempt

/-!
# What fetching asks the cluster

A secret is fetched with at most one request, which is for its path. A secret that was fetched came
with the next reply of the cluster.

Results:
* `fetch_asked`: at most the path of the secret is asked for.
* `fetch_ok`, `fetchValue_ok`: what was fetched was in the next reply.
-/

namespace CredentialRelay.Kubernetes

variable {namespaceName name key : String} {cluster : Cluster}

theorem ask_asked (cluster : Cluster) (path : String) :
    ∃ paths, paths <+: [path] ∧ (cluster.ask path).world.asked = cluster.asked ++ paths := by
  obtain ⟨link, replies, asked⟩ := cluster
  unfold Cluster.ask
  cases link with
  | unreachable => exact ⟨[], List.nil_prefix, (List.append_nil _).symm⟩
  | working =>
    refine ⟨[path], List.prefix_rfl, ?_⟩
    rcases replies with _ | ⟨⟨response⟩ | _, rest⟩ <;> rfl

/-- A response is the next reply of the cluster, unless that has none left. -/
theorem ask_ok {path : String} {response : Http.Response}
    (h : (cluster.ask path).result = .ok response) :
    (∃ rest, cluster.replies = .respond response :: rest ∧ (cluster.ask path).world =
        { cluster with replies := rest, asked := cluster.asked ++ [path] }) ∨
      response = Http.exhausted := by
  obtain ⟨link, replies, asked⟩ := cluster
  unfold Cluster.ask at h ⊢
  cases link with
  | unreachable => cases h
  | working =>
    rcases replies with _ | ⟨⟨reply⟩ | _, rest⟩
    · cases h
      exact .inr rfl
    · cases h
      exact .inl ⟨rest, rfl, rfl⟩
    · cases h

/-- No secret is in the response of a cluster that has no replies left. -/
theorem readSecret_exhausted (secret : Secret) : readSecret Http.exhausted ≠ .ok secret := by
  unfold readSecret
  cases Text.Utf8.decode Http.exhausted.body with
  | error error => exact nofun
  | ok text => exact nofun

theorem world_fetch (namespaceName name : String) (cluster : Cluster) :
    (fetch namespaceName name cluster).world = (cluster.ask (pathOf namespaceName name)).world :=
  Attempt.world_andThen_of_same fun _ _ => rfl

theorem world_fetchValue (namespaceName name key : String) (cluster : Cluster) :
    (fetchValue namespaceName name key cluster).world = (fetch namespaceName name cluster).world :=
  Attempt.world_andThen_of_same fun _ _ => rfl

/-- **At most the path of the secret is asked for.** -/
theorem fetch_asked (namespaceName name : String) (cluster : Cluster) :
    ∃ paths, paths <+: [pathOf namespaceName name] ∧
      (fetch namespaceName name cluster).world.asked = cluster.asked ++ paths := by
  rw [world_fetch]
  exact ask_asked ..

/-- **What was fetched was in the next reply.** -/
theorem fetch_ok {secret : Secret} (h : (fetch namespaceName name cluster).result = .ok secret) :
    ∃ response rest, cluster.replies = .respond response :: rest ∧
      readSecret response = .ok secret ∧ (fetch namespaceName name cluster).world =
        { cluster with
          replies := rest
          asked := cluster.asked ++ [pathOf namespaceName name] } := by
  rw [world_fetch]
  obtain ⟨response, hasked, hread, -⟩ := Attempt.andThen_ok (Attempt.within_ok h)
  have hread : readSecret response = .ok secret := hread
  rcases ask_ok hasked with ⟨rest, hreplies, hworld⟩ | rfl
  · exact ⟨response, rest, hreplies, hread, hworld⟩
  · exact absurd hread (readSecret_exhausted secret)

/-- An entry that was fetched is one of the secret that was fetched. -/
theorem fetchValue_ok {value : String}
    (h : (fetchValue namespaceName name key cluster).result = .ok value) :
    ∃ secret, (fetch namespaceName name cluster).result = .ok secret ∧
      secret.text key = .ok value := by
  obtain ⟨secret, hfetch, hvalue, -⟩ := Attempt.andThen_ok h
  refine ⟨secret, hfetch, ?_⟩
  cases htext : secret.text key with
  | error failure =>
    simp only [htext] at hvalue
    cases hvalue
  | ok text =>
    simp only [htext] at hvalue
    cases hvalue
    rfl

end CredentialRelay.Kubernetes
