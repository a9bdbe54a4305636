import CredentialRelay.Cycle.Remote
import CredentialRelay.Proofs.Cycle.Calls

/-!
# Who tells what

A cycle tells events of its own and passes on those of the services. The services tell nothing in
the name of the job, so that the two can be told apart.

* `Attempt.Tells P`, `Services.Tell P`: all events that an attempt or the services tell are in some
  class.

Results:
* `Surroundings.services_tell`: remote services tell events of the source and of the vault only, and
  so nothing in the name of the job (`Surroundings.services_tell_not_job`).
* `Memory.services_tell`: services in memory tell nothing.
* `storeEntries_tell`: what is told on the way through the entries is what the services tell.
-/

namespace CredentialRelay

open Log

/-! ## Attempts -/

namespace Attempt

variable {κ μ σ τ α β : Type} {P : Event → Prop}

/-- All events that an attempt tells are in some class. -/
def Tells (P : Event → Prop) (a : Attempt κ σ α) : Prop :=
  ∀ e ∈ a.log, P e

theorem Tells.ofResult (result : Except (Failure κ) α) (world : σ) :
    (Attempt.ofResult result world).Tells P :=
  List.forall_mem_nil _

theorem Tells.map {a : Attempt κ σ α} (ha : a.Tells P) (f : α → β) : (a.map f).Tells P :=
  ha

theorem Tells.mapCause {a : Attempt κ σ α} (ha : a.Tells P) (f : κ → μ) :
    (a.mapCause f).Tells P :=
  ha

theorem Tells.within {a : Attempt κ σ α} (ha : a.Tells P) (context : κ) :
    (a.within context).Tells P :=
  ha

theorem Tells.lift {a : Attempt κ σ α} (ha : a.Tells P) (put : σ → τ) : (a.lift put).Tells P :=
  ha

theorem Tells.andThen {a : Attempt κ σ α} {next : α → σ → Attempt κ σ β} (ha : a.Tells P)
    (hnext : ∀ value world, (next value world).Tells P) : (a.andThen next).Tells P := by
  unfold Attempt.andThen
  cases a.result with
  | error failure => exact ha
  | ok value => exact List.forall_mem_append.mpr ⟨ha, hnext value a.world⟩

theorem Tells.telling {a : Attempt κ σ α} {event : α → Event} (ha : a.Tells P)
    (hevent : ∀ value, P (event value)) : (a.telling event).Tells P := by
  unfold Attempt.telling
  cases a.result with
  | error failure => exact ha
  | ok value =>
    exact List.forall_mem_append.mpr ⟨ha, List.forall_mem_singleton.mpr (hevent value)⟩

theorem Tells.inSpan {a : Attempt κ σ α} {span : Span} (ha : a.Tells P)
    (hspan : ∀ e, P e → P (e.inSpan span)) : (a.inSpan span).Tells P :=
  List.forall_mem_map.mpr fun e he => hspan e (ha e he)

end Attempt

open CredentialRelay.Cycle

variable {σ ν : Type} {P Q : Event → Prop} {services : Services σ ν}

/-- All events that the services tell are in some class. -/
structure Services.Tell (P : Event → Prop) (services : Services σ ν) : Prop where
  read : ∀ namespaceName name w, (services.read namespaceName name w).Tells P
  login : ∀ w, (services.login w).Tells P
  store : ∀ session mount path attributes w,
    (services.store session mount path attributes w).Tells P

namespace Services.Tell

/-- Recording the calls tells nothing more. -/
theorem recorded (h : services.Tell P) : services.recorded.Tell P :=
  ⟨fun namespaceName name r => h.read namespaceName name r.world, fun r => h.login r.world,
    fun session mount path attributes r => h.store session mount path attributes r.world⟩

theorem mono (h : services.Tell P) (hpq : ∀ e, P e → Q e) : services.Tell Q :=
  ⟨fun namespaceName name w e he => hpq e (h.read namespaceName name w e he),
    fun w e he => hpq e (h.login w e he),
    fun session mount path attributes w e he => hpq e (h.store session mount path attributes w e he)⟩

end Services.Tell

/-! ## Services in memory -/

/-- Services in memory tell nothing. -/
theorem Memory.services_tell : Memory.services.Tell P where
  read _ _ _ := Attempt.Tells.ofResult _ _
  login _ := Attempt.Tells.ofResult _ _
  store _ _ path _ m := by
    simp only [Memory.services]
    cases m.denial? path with
    | none => exact Attempt.Tells.ofResult _ _
    | some failure => exact Attempt.Tells.ofResult _ _

/-! ## Remote services -/

/-- An event of the source or of the vault. -/
def Remote (e : Event) : Prop :=
  e.component = .source ∨ e.component = .vault

theorem Remote.ne_job {e : Event} (h : Remote e) : e.component ≠ .job := by
  rcases h with h | h <;> (rw [h]; decide)

namespace Kubernetes

theorem ask_tells (cluster : Cluster) (path : String) : (cluster.ask path).Tells P := by
  unfold Cluster.ask
  split
  · exact Attempt.Tells.ofResult _ _
  · split <;> exact Attempt.Tells.ofResult _ _

theorem fetch_tells (namespaceName name : String) (cluster : Cluster) :
    (fetch namespaceName name cluster).Tells P :=
  Attempt.Tells.andThen (ask_tells cluster _) fun _ _ => Attempt.Tells.ofResult _ _

theorem fetchValue_tells (namespaceName name key : String) (cluster : Cluster) :
    (fetchValue namespaceName name key cluster).Tells P :=
  Attempt.Tells.andThen (fetch_tells namespaceName name cluster) fun _ _ =>
    Attempt.Tells.ofResult _ _

end Kubernetes

namespace Http

variable {β : Type}

theorem deliver_tells (peer : Peer β) (request : Request β) : (peer.deliver request).Tells P := by
  unfold Peer.deliver
  simp only
  split
  · exact Attempt.Tells.ofResult _ _
  · split <;> exact Attempt.Tells.ofResult _ _

/-- Following responses tells nothing. -/
theorem follow_tells : ∀ (left : Nat) (request : Request β) (peer : Peer β),
    (follow left request peer).Tells P
  | 0, request, peer => by
    unfold follow
    refine Attempt.Tells.andThen (deliver_tells peer request) fun response peer => ?_
    unfold settle
    split <;> exact Attempt.Tells.ofResult _ _
  | left + 1, request, peer => by
    unfold follow
    refine Attempt.Tells.andThen (deliver_tells peer request) fun response peer => ?_
    unfold settle
    split
    · exact Attempt.Tells.ofResult _ _
    · exact Attempt.Tells.ofResult _ _
    · dsimp only
      split
      · exact follow_tells left _ _
      · exact Attempt.Tells.ofResult _ _

end Http

namespace Vault

theorem send_tells (purpose : Cause) (method : Http.Method) (url : String) (token : Option String)
    (body : Option Body) (server : Server) : (send purpose method url token body server).Tells P := by
  unfold send
  split
  · exact Attempt.Tells.ofResult _ _
  · exact ((Http.follow_tells _ _ _).mapCause _).within _

theorem checked_tells (context : Cause) (response : Http.Response) (server : Server) :
    (checked context response server).Tells P := by
  unfold checked
  split <;> exact Attempt.Tells.ofResult _ _

theorem withToken_tells (address token : String) (server : Server) :
    (Session.withToken address token server).Tells Remote := by
  unfold Session.withToken
  refine (((send_tells _ _ _ _ _ server).andThen fun response server => ?_).map _).telling
    fun _ => .inr rfl
  exact checked_tells _ response server

theorem login_tells (address mount role jwt : String) (server : Server) :
    (Session.login address mount role jwt server).Tells Remote := by
  unfold Session.login
  refine ((((send_tells _ _ _ _ _ server).andThen fun response server => ?_).andThen
    fun response server => ?_).telling fun _ => .inr rfl).map _
  · exact checked_tells _ response server
  · split <;> exact Attempt.Tells.ofResult _ _

theorem store_tells (session : Session) (mount path : String) (attributes : Attributes)
    (server : Server) : (session.store mount path attributes server).Tells Remote := by
  unfold Session.store
  refine ((((send_tells _ _ _ _ _ server).andThen fun response server => ?_).map _).telling
    fun _ => .inr rfl).inSpan fun _ he => he
  exact checked_tells _ response server

end Vault

namespace Surroundings

theorem warnings_remote (secret : Secret) :
    ∀ e ∈ secret.textWarnings ++ secret.timeWarnings, Remote e := by
  have htext : ∀ entry e, Secret.textWarning? entry = some e → Remote e := by
    intro entry e he
    unfold Secret.textWarning? at he
    split at he
    · cases he
    · cases he
      exact .inl rfl
  have htime : ∀ t e, Secret.timeWarning? t = some e → Remote e := by
    intro t e he
    unfold Secret.timeWarning? at he
    split at he
    · cases he
    · cases he
      exact .inl rfl
  intro e he
  simp only [Secret.textWarnings, Secret.timeWarnings, List.mem_append, List.mem_filterMap,
    Option.bind_eq_some_iff] at he
  rcases he with ⟨entry, -, he⟩ | ⟨time, -, t, -, he⟩ | he
  · exact htext entry e he
  · exact htime t e he
  · split at he
    · cases he
    · obtain ⟨t, -, he⟩ := Option.bind_eq_some_iff.mp (Option.mem_toList.mp he)
      exact htime t e he

theorem snapshot_tells (namespaceName name : String) (secret : Secret)
    (cluster : Kubernetes.Cluster) : (snapshot namespaceName name secret cluster).Tells Remote := by
  have hwarnings := warnings_remote secret
  unfold snapshot
  simp only
  split
  · exact hwarnings
  · exact List.forall_mem_append.mpr ⟨hwarnings, List.forall_mem_singleton.mpr (.inl rfl)⟩

/-- **Remote services tell events of the source and of the vault only.** -/
theorem services_tell (config : VaultConfig) : (Surroundings.services config).Tell Remote where
  read namespaceName name s :=
    (((Kubernetes.fetch_tells namespaceName name s.cluster).andThen
      fun secret cluster => snapshot_tells namespaceName name secret cluster).mapCause _).lift _
  login s := by
    show (login config s).Tells Remote
    unfold login
    split
    · exact Attempt.Tells.andThen
        ((((Kubernetes.fetchValue_tells _ _ _ s.cluster).mapCause _).lift _).within _)
        fun token s => ((Vault.withToken_tells config.address token s.vault).mapCause _).lift _
    · exact Attempt.Tells.andThen (Attempt.Tells.ofResult _ _)
        fun jwt s => ((Vault.login_tells config.address _ _ jwt s.vault).mapCause _).lift _
  store session mount path attributes s :=
    ((Vault.store_tells session mount path attributes s.vault).mapCause _).lift _

/-- Remote services tell nothing in the name of the job. -/
theorem services_tell_not_job (config : VaultConfig) :
    (Surroundings.services config).Tell fun e => e.component ≠ .job :=
  (services_tell config).mono fun _ => Remote.ne_job

end Surroundings

/-! ## Entries -/

namespace Cycle

theorem storeEntry_tell (h : services.Tell P) (session : ν) (mount key value : String) (w : σ) :
    ∀ e ∈ (storeEntry services session mount key value w).1.log, P e := by
  unfold storeEntry
  split
  · exact nofun
  · split
    · exact nofun
    · next credential _ =>
      have hstore := h.store session mount credential.path credential.attributes w
      simp only
      split <;> exact hstore

/-- **What is told on the way is what the services tell.** -/
theorem storeEntries_tell (h : services.Tell P) (session : ν) (mount : String) :
    ∀ (entries : List (String × String)) (w : σ),
      ∀ record ∈ (storeEntries services session mount entries w).1, ∀ e ∈ record.log, P e
  | [], _ => List.forall_mem_nil _
  | (key, value) :: entries, w => by
    have hfirst := storeEntry_tell h session mount key value w
    have hrest := storeEntries_tell h session mount entries
      (storeEntry services session mount key value w).2
    unfold storeEntries
    exact List.forall_mem_cons.mpr ⟨hfirst, hrest⟩

end Cycle

end CredentialRelay
