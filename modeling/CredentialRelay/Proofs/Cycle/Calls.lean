import CredentialRelay.Cycle.Memory

/-!
# The calls of a cycle

A cycle acts on the world through its services only. `Services.recorded` are the same services in
a world that also keeps every call with its answer, so that what a cycle asks for, how often, and in
which order, can be read off the world that it leaves.

* `Services.Simulates f fine coarse`: `f` forgets part of a world, and the services on both sides
  give the same answers and tell the same events.
* `planned?`: what an entry asks to be stored, if it is of a known kind and holds a credential.
* `Course`: everything that a cycle can do, one constructor for each way to end.

Results:
* `run_through`: a cycle in the finer world is the cycle in the coarser one, seen through `f`.
* `recorded_simulates`: recording the calls changes nothing.
* `storeEntries_calls`: exactly the planned entries are stored, each once, in their order.
* `run_course`: every cycle takes one of the four courses.
-/

namespace CredentialRelay

namespace Cycle

variable {σ τ : Type}

/-! ## Calls -/

/-- A call of a service, with what it answered. -/
inductive Call where
  | read (namespaceName name : String) (answer : Except (Failure Service.Cause) Snapshot)
  | login (answer : Except (Failure Service.Cause) Unit)
  | store (request : StoredCredential) (answer : Except (Failure Service.Cause) Unit)

namespace Call

/-- The answer of a reading. -/
def reading? : Call → Option (Except (Failure Service.Cause) Snapshot)
  | .read _ _ answer => some answer
  | _ => none

/-- The answer of a login. -/
def login? : Call → Option (Except (Failure Service.Cause) Unit)
  | .login answer => some answer
  | _ => none

/-- What is asked to be stored. -/
def request? : Call → Option StoredCredential
  | .store request _ => some request
  | _ => none

end Call

/-- A world with the calls that were made in it, in order. -/
structure Recorded (σ : Type) where
  world : σ
  calls : List Call

/-- The world that one more call leaves. -/
def Recorded.after (r : Recorded σ) (call : Call) (world : σ) : Recorded σ :=
  ⟨world, r.calls ++ [call]⟩

/-- A turn with its world seen through `f`. -/
def Turn.through (f : τ → σ) (turn : Turn τ) : Turn σ :=
  ⟨turn.outcome, turn.job, turn.metrics, turn.log, f turn.world⟩

end Cycle

open CredentialRelay.Cycle

variable {σ τ ν : Type}

namespace Services

/-- The services in a world that keeps the calls. -/
def recorded (services : Services σ ν) : Services (Recorded σ) ν where
  read namespaceName name r :=
    let a := services.read namespaceName name r.world
    a.lift (r.after (.read namespaceName name a.result))
  login r :=
    let a := services.login r.world
    a.lift (r.after (.login (a.result.map fun _ => ())))
  store session mount path attributes r :=
    let a := services.store session mount path attributes r.world
    a.lift (r.after (.store ⟨mount, path, attributes⟩ a.result))

/-- `f` forgets part of a world, and the services on both sides answer alike. -/
structure Simulates (f : τ → σ) (fine : Services τ ν) (coarse : Services σ ν) : Prop where
  read : ∀ namespaceName name w,
    (fine.read namespaceName name w).lift f = coarse.read namespaceName name (f w)
  login : ∀ w, (fine.login w).lift f = coarse.login (f w)
  store : ∀ session mount path attributes w,
    (fine.store session mount path attributes w).lift f =
      coarse.store session mount path attributes (f w)

/-- Recording the calls changes neither the answers nor the events nor the world. -/
theorem recorded_simulates (services : Services σ ν) :
    services.recorded.Simulates Recorded.world services :=
  ⟨fun _ _ _ => rfl, fun _ => rfl, fun _ _ _ _ _ => rfl⟩

end Services

namespace Cycle

/-! ## Seeing less of a world -/

section Through

variable {f : τ → σ} {fine : Services τ ν} {coarse : Services σ ν}

theorem storeEntry_through (h : fine.Simulates f coarse) (session : ν) (mount key value : String)
    (w : τ) :
    (storeEntry fine session mount key value w).map id f =
      storeEntry coarse session mount key value (f w) := by
  unfold storeEntry
  split
  · rfl
  · split
    · rfl
    · next credential _ =>
      rw [← h.store session mount credential.path credential.attributes w]
      cases hr : (fine.store session mount credential.path credential.attributes w).result <;>
        simp [Attempt.lift, hr]

theorem storeEntries_through (h : fine.Simulates f coarse) (session : ν) (mount : String) :
    ∀ (entries : List (String × String)) (w : τ),
      (storeEntries fine session mount entries w).map id f =
        storeEntries coarse session mount entries (f w)
  | [], _ => rfl
  | (key, value) :: entries, w => by
    have hentry := storeEntry_through h session mount key value w
    have hrest := storeEntries_through h session mount entries
      (storeEntry fine session mount key value w).2
    unfold storeEntries
    rw [← hentry]
    simp only [Prod.map_fst, Prod.map_snd, id_eq, ← hrest, Prod.map_apply]

theorem complete_through (h : fine.Simulates f coarse) (timing : Timing) (job : Job)
    (metrics : Metrics) (snapshot : Snapshot) (session : ν) (w : τ) :
    (complete fine timing job metrics snapshot session w).through f =
      complete coarse timing job metrics snapshot session (f w) := by
  unfold complete
  rw [← storeEntries_through h]
  rfl

theorem proceed_through (h : fine.Simulates f coarse) (timing : Timing) (job : Job)
    (metrics : Metrics) (snapshot : Snapshot) (w : τ) :
    (proceed fine timing job metrics snapshot w).through f =
      proceed coarse timing job metrics snapshot (f w) := by
  unfold proceed
  split
  · rfl
  · rw [← h.login w]
    simp only [Attempt.lift]
    cases hr : (fine.login w).result with
    | error failure => rfl
    | ok session => simp only [Turn.through, ← complete_through h]

theorem attempt_through (h : fine.Simulates f coarse) (timing : Timing) (job : Job)
    (metrics : Metrics) (w : τ) :
    (attempt fine timing job metrics w).through f = attempt coarse timing job metrics (f w) := by
  unfold attempt
  rw [← h.read job.namespaceName job.secretName w]
  simp only [Attempt.lift]
  cases hr : (fine.read job.namespaceName job.secretName w).result with
  | error failure => rfl
  | ok snapshot => simp only [Turn.through, ← proceed_through h]

/-- **A cycle does not look at what is forgotten**: seen through `f`, a cycle in the finer world is
the cycle in the coarser one. -/
theorem run_through (h : fine.Simulates f coarse) (timing : Timing) (job : Job)
    (metrics : Metrics) (w : τ) :
    (run fine timing job metrics w).through f = run coarse timing job metrics (f w) := by
  unfold run
  simp only [Turn.through, ← attempt_through h]

end Through

/-! ## What is stored -/

/-- What an entry asks to be stored: its credential, if it is of a known kind and holds one. -/
def planned? (mount : String) (entry : String × String) : Option StoredCredential :=
  (Credential.Kind.ofKey? entry.1).bind fun kind =>
    (Credential.parse kind entry.2).toOption.map fun c => ⟨mount, c.path, c.attributes⟩

theorem storeEntry_calls (services : Services σ ν) (session : ν) (mount key value : String)
    (r : Recorded σ) :
    ∃ calls, (storeEntry services.recorded session mount key value r).2.calls = r.calls ++ calls ∧
      calls.map Call.request? = (planned? mount (key, value)).toList.map some := by
  unfold storeEntry planned?
  split
  · next hk => exact ⟨[], by simp, by simp [hk]⟩
  · next kind hk =>
    split
    · next fault hp => exact ⟨[], by simp, by simp [hk, hp, Except.toOption]⟩
    · next credential hp =>
      refine ⟨[.store ⟨mount, credential.path, credential.attributes⟩ (services.store session mount
        credential.path credential.attributes r.world).result], ?_, ?_⟩
      · simp only
        split <;> rfl
      · simp [hk, hp, Except.toOption, Call.request?]

/-- **Exactly the planned entries are stored**, each once, in the order of the entries. -/
theorem storeEntries_calls (services : Services σ ν) (session : ν) (mount : String) :
    ∀ (entries : List (String × String)) (r : Recorded σ),
      ∃ calls, (storeEntries services.recorded session mount entries r).2.calls =
          r.calls ++ calls ∧
        calls.map Call.request? = (entries.filterMap (planned? mount)).map some
  | [], r => ⟨[], by simp [storeEntries], rfl⟩
  | (key, value) :: entries, r => by
    obtain ⟨first, hfirst, hplan⟩ := storeEntry_calls services session mount key value r
    obtain ⟨rest, hrest, hplans⟩ := storeEntries_calls services session mount entries
      (storeEntry services.recorded session mount key value r).2
    refine ⟨first ++ rest, ?_, ?_⟩
    · unfold storeEntries
      rw [hrest, hfirst, List.append_assoc]
    · rw [List.map_append, hplan, hplans, List.filterMap_cons]
      cases planned? mount (key, value) <;> rfl

/-! ## The courses of a cycle -/

/-- Everything that a cycle of `job` can do: its calls in order, how it ends, and the work that it
leaves. -/
inductive Course (job : Job) : List Call → Outcome → Job → Prop
  | unavailable (failure : Failure Service.Cause) :
    Course job [.read job.namespaceName job.secretName (.error failure)] .sourceUnavailable job
  | unchanged (snapshot : Snapshot) (hsame : job.cursor = some snapshot.lastUpdated) :
    Course job [.read job.namespaceName job.secretName (.ok snapshot)] .unchanged job
  | refused (snapshot : Snapshot) (failure : Failure Service.Cause)
      (hnew : job.cursor ≠ some snapshot.lastUpdated) :
    Course job [.read job.namespaceName job.secretName (.ok snapshot), .login (.error failure)]
      .authenticationFailed job
  | completed (snapshot : Snapshot) (stores : List Call) (report : Report)
      (hnew : job.cursor ≠ some snapshot.lastUpdated)
      (hstores : stores.map Call.request? =
        (snapshot.data.entries.filterMap (planned? job.credentialMount)).map some) :
    Course job (.read job.namespaceName job.secretName (.ok snapshot) :: .login (.ok ()) :: stores)
      (.completed report) { job with cursor := some snapshot.lastUpdated }

theorem proceed_course (services : Services σ ν) (timing : Timing) (job : Job) (metrics : Metrics)
    (snapshot : Snapshot) (r : Recorded σ) :
    let turn := proceed services.recorded timing job metrics snapshot r
    ∃ calls, turn.world.calls = r.calls ++ calls ∧
      Course job (.read job.namespaceName job.secretName (.ok snapshot) :: calls) turn.outcome
        turn.job := by
  unfold proceed
  split
  · next hsame => exact ⟨[], by simp, .unchanged snapshot hsame⟩
  · next hnew =>
    have hcalls : (services.recorded.login r).world.calls =
        r.calls ++ [.login ((services.recorded.login r).result.map fun _ => ())] := rfl
    generalize services.recorded.login r = a at hcalls
    obtain ⟨result, log, world⟩ := a
    cases result with
    | error failure => exact ⟨[.login (.error failure)], hcalls, .refused snapshot failure hnew⟩
    | ok session =>
      obtain ⟨stores, hstores, hplan⟩ := storeEntries_calls services session job.credentialMount
        snapshot.data.entries world
      refine ⟨.login (.ok ()) :: stores, ?_, .completed snapshot stores _ hnew hplan⟩
      show (storeEntries services.recorded session job.credentialMount snapshot.data.entries
        world).2.calls = _
      rw [hstores, hcalls, List.append_assoc]
      rfl

/-- **Every cycle takes one of the courses.** -/
theorem run_course (services : Services σ ν) (timing : Timing) (job : Job) (metrics : Metrics)
    (r : Recorded σ) :
    let turn := run services.recorded timing job metrics r
    ∃ calls, turn.world.calls = r.calls ++ calls ∧ Course job calls turn.outcome turn.job := by
  unfold run attempt
  have hcalls : (services.recorded.read job.namespaceName job.secretName r).world.calls =
      r.calls ++ [.read job.namespaceName job.secretName
        (services.recorded.read job.namespaceName job.secretName r).result] := rfl
  generalize services.recorded.read job.namespaceName job.secretName r = a at hcalls
  obtain ⟨result, log, world⟩ := a
  cases result with
  | error failure => exact ⟨_, hcalls, .unavailable failure⟩
  | ok snapshot =>
    obtain ⟨calls, hrest, hcourse⟩ :=
      proceed_course services timing job metrics.countCycle snapshot world
    refine ⟨_, ?_, hcourse⟩
    show (proceed services.recorded timing job metrics.countCycle snapshot world).world.calls = _
    rw [hrest, hcalls, List.append_assoc]
    rfl

end Cycle

end CredentialRelay
