import CredentialRelay.Proofs.Cycle.History

/-!
# Change detection

A job remembers the time of the secret that its last completed cycle read, and works on the entries
only if the time that it reads now is another one, be it later or earlier.

* `lastCompleted?`: the time that the latest completed turn read, told by its calls alone.
* `DetectsChange`: what one cycle asks for, how it ends, and what it remembers.

Results:
* `Course.detectsChange`: each of the four courses is as `DetectsChange` says.
* `cursor_eq_lastCompleted`: the cursor is always the time that the latest completed turn read.
* `change_detection`: both, for every history of a new job.
-/

namespace CredentialRelay.Cycle

variable {σ ν : Type}

/-- Whether a cycle was completed. -/
def Outcome.isCompleted : Outcome → Bool
  | .completed _ => true
  | _ => false

namespace Turn

/-- What the source answered. -/
def reading? (turn : Turn (Recorded σ)) : Option (Except (Failure Service.Cause) Snapshot) :=
  turn.calls.findSome? Call.reading?

/-- What the vault answered to the login. -/
def login? (turn : Turn (Recorded σ)) : Option (Except (Failure Service.Cause) Unit) :=
  turn.calls.findSome? Call.login?

/-- The time of the secret that was read. -/
def timeRead? (turn : Turn (Recorded σ)) : Option Instant :=
  match turn.reading? with
  | some (.ok snapshot) => some snapshot.lastUpdated
  | _ => none

end Turn

/-- The time that the latest completed turn read. -/
def lastCompleted? (turns : List (Turn (Recorded σ))) : Option Instant :=
  (turns.reverse.find? fun turn => turn.outcome.isCompleted).bind Turn.timeRead?

/-- What a cycle of `job` asks for, how it ends, and what it remembers. -/
structure DetectsChange (job : Job) (turn : Turn (Recorded σ)) : Prop where
  /-- The secret is read once. -/
  one_read : ∃ answer, (turn.calls.filter fun call => call.reading?.isSome) =
    [.read job.namespaceName job.secretName answer]
  /-- A session is asked for at most once, and only with something to store. -/
  logins : (turn.calls.filterMap Call.login?).length =
    if turn.outcome = .sourceUnavailable ∨ turn.outcome = .unchanged then 0 else 1
  /-- Only a completed cycle stores anything. -/
  stores : turn.calls.filterMap Call.request? ≠ [] → turn.outcome.isCompleted = true
  unavailable_iff : turn.outcome = .sourceUnavailable ↔
    ∃ failure, turn.reading? = some (.error failure)
  unchanged_iff : ∀ snapshot, turn.reading? = some (.ok snapshot) →
    (turn.outcome = .unchanged ↔ job.cursor = some snapshot.lastUpdated)
  refused_iff : ∀ snapshot, turn.reading? = some (.ok snapshot) →
    job.cursor ≠ some snapshot.lastUpdated →
      (turn.outcome = .authenticationFailed ↔ ∃ failure, turn.login? = some (.error failure))
  completed_iff : ∀ snapshot, turn.reading? = some (.ok snapshot) →
    job.cursor ≠ some snapshot.lastUpdated →
      (turn.outcome.isCompleted = true ↔ turn.login? = some (.ok ()))
  /-- A cycle that is given up leaves the work as it was. -/
  kept : turn.outcome.isCompleted = false → turn.job = job
  /-- A completed cycle changes the cursor and nothing else. -/
  moved : turn.outcome.isCompleted = true →
    turn.timeRead?.isSome = true ∧ turn.job = { job with cursor := turn.timeRead? }

/-! ## One cycle -/

/-- A turn read one secret. -/
theorem Turn.snapshot_unique {turn : Turn (Recorded σ)} {snapshot other : Snapshot}
    (h : turn.reading? = some (.ok snapshot)) (hother : turn.reading? = some (.ok other)) :
    snapshot = other := by
  rw [h] at hother
  cases hother
  rfl

/-- Calls that ask for something to be stored ask for nothing else. -/
theorem only_stores {stores : List Call} {requests : List StoredCredential}
    (h : stores.map Call.request? = requests.map some) :
    ∀ call ∈ stores, call.reading? = none ∧ call.login? = none := by
  intro call hcall
  have hmem : call.request? ∈ requests.map some := h ▸ List.mem_map_of_mem hcall
  obtain ⟨request, -, hrequest⟩ := List.mem_map.mp hmem
  cases call with
  | read _ _ _ => simp [Call.request?] at hrequest
  | login _ => simp [Call.request?] at hrequest
  | store _ _ => exact ⟨rfl, rfl⟩

/-- **Each course is as change detection promises.** -/
theorem Course.detectsChange {job : Job} {turn : Turn (Recorded σ)}
    (h : Course job turn.calls turn.outcome turn.job) : DetectsChange job turn := by
  generalize hcalls : turn.calls = calls at h
  generalize houtcome : turn.outcome = outcome at h
  generalize hjob : turn.job = next at h
  have hread : turn.reading? = calls.findSome? Call.reading? := by rw [Turn.reading?, hcalls]
  have hlogin : turn.login? = calls.findSome? Call.login? := by rw [Turn.login?, hcalls]
  cases h with
  | unavailable failure =>
    replace hread : turn.reading? = some (.error failure) := hread
    exact {
      one_read := ⟨_, by rw [hcalls]; rfl⟩
      logins := by rw [hcalls, houtcome]; rfl
      stores := fun hne => absurd (by rw [hcalls]; rfl) hne
      unavailable_iff := ⟨fun _ => ⟨failure, hread⟩, fun _ => houtcome⟩
      unchanged_iff := fun _ hok => by rw [hread] at hok; cases hok
      refused_iff := fun _ hok => by rw [hread] at hok; cases hok
      completed_iff := fun _ hok => by rw [hread] at hok; cases hok
      kept := fun _ => hjob
      moved := fun hdone => by rw [houtcome] at hdone; cases hdone }
  | unchanged snapshot hsame =>
    replace hread : turn.reading? = some (.ok snapshot) := hread
    have hsnapshot {other : Snapshot} (hok : turn.reading? = some (.ok other)) :
        snapshot = other := Turn.snapshot_unique hread hok
    exact {
      one_read := ⟨_, by rw [hcalls]; rfl⟩
      logins := by rw [hcalls, houtcome]; rfl
      stores := fun hne => absurd (by rw [hcalls]; rfl) hne
      unavailable_iff := by rw [houtcome, hread]; simp
      unchanged_iff := fun other hok => ⟨fun _ => hsnapshot hok ▸ hsame, fun _ => houtcome⟩
      refused_iff := fun other hok hnew => absurd (hsnapshot hok ▸ hsame) hnew
      completed_iff := fun other hok hnew => absurd (hsnapshot hok ▸ hsame) hnew
      kept := fun _ => hjob
      moved := fun hdone => by rw [houtcome] at hdone; cases hdone }
  | refused snapshot failure hnew =>
    replace hread : turn.reading? = some (.ok snapshot) := hread
    replace hlogin : turn.login? = some (.error failure) := hlogin
    exact {
      one_read := ⟨_, by rw [hcalls]; rfl⟩
      logins := by rw [hcalls, houtcome]; rfl
      stores := fun hne => absurd (by rw [hcalls]; rfl) hne
      unavailable_iff := by rw [houtcome, hread]; simp
      unchanged_iff := fun other hok => by
        have hsame := Turn.snapshot_unique hread hok
        rw [houtcome]
        exact ⟨fun h => (nomatch h), fun h => absurd (hsame ▸ h) hnew⟩
      refused_iff := fun _ _ _ => ⟨fun _ => ⟨failure, hlogin⟩, fun _ => houtcome⟩
      completed_iff := fun _ _ _ => by rw [houtcome, hlogin]; simp [Outcome.isCompleted]
      kept := fun _ => hjob
      moved := fun hdone => by rw [houtcome] at hdone; cases hdone }
  | completed snapshot stores report hnew hstores =>
    replace hread : turn.reading? = some (.ok snapshot) := hread
    replace hlogin : turn.login? = some (.ok ()) := hlogin
    have honly := only_stores hstores
    have htime : turn.timeRead? = some snapshot.lastUpdated := by rw [Turn.timeRead?, hread]
    exact {
      one_read := ⟨.ok snapshot, by
        have hnone : (stores.filter fun call => call.reading?.isSome) = [] :=
          List.filter_eq_nil_iff.mpr fun call hcall => by simp [(honly call hcall).1]
        rw [hcalls]
        exact congrArg (List.cons _) hnone⟩
      logins := by
        have hnone : stores.filterMap Call.login? = [] :=
          List.filterMap_eq_nil_iff.mpr fun call hcall => (honly call hcall).2
        rw [hcalls, houtcome]
        exact congrArg (fun logins => logins.length + 1) hnone
      stores := fun _ => by rw [houtcome]; rfl
      unavailable_iff := by rw [houtcome, hread]; simp
      unchanged_iff := fun other hok => by
        have hsame := Turn.snapshot_unique hread hok
        rw [houtcome]
        exact ⟨fun h => (nomatch h), fun h => absurd (hsame ▸ h) hnew⟩
      refused_iff := fun _ _ _ => by rw [houtcome, hlogin]; simp
      completed_iff := fun _ _ _ => ⟨fun _ => hlogin, fun _ => by rw [houtcome]; rfl⟩
      kept := fun hdone => by rw [houtcome] at hdone; cases hdone
      moved := fun _ => ⟨by rw [htime]; rfl, by rw [htime]; exact hjob⟩ }

/-! ## Histories -/

theorem lastCompleted?_append_singleton (turns : List (Turn (Recorded σ)))
    (turn : Turn (Recorded σ)) :
    lastCompleted? (turns ++ [turn]) =
      if turn.outcome.isCompleted then turn.timeRead? else lastCompleted? turns := by
  unfold lastCompleted?
  rw [List.reverse_append, List.reverse_singleton, List.singleton_append, List.find?_cons]
  cases turn.outcome.isCompleted <;> rfl

/-- **The cursor is the time that the latest completed turn read**, after every cycle of a job that
began without one. -/
theorem cursor_eq_lastCompleted (services : Services σ ν) (job : Job)
    (hjob : job.cursor = none) (metrics : Metrics) (world : σ) (rounds : List (Round σ)) :
    let turns := watched services job metrics world rounds
    ∀ n ≤ turns.length, (jobAfter job (turns.take n)).cursor = lastCompleted? (turns.take n) := by
  intro turns n
  induction n with
  | zero => exact fun _ => hjob
  | succ n ih =>
    intro hn
    have hturn := (watched_course services job metrics world rounds n hn).detectsChange
    rw [List.take_succ_eq_append_getElem hn, jobAfter_append_singleton,
      lastCompleted?_append_singleton]
    cases hdone : turns[n].outcome.isCompleted with
    | false => rw [hturn.kept hdone, ih (Nat.le_of_succ_le hn)]; rfl
    | true => rw [(hturn.moved hdone).2]; rfl

/-- **Change detection.** A new job remembers nothing. After any cycles, whatever the source and
the vault answered and however the world changed between them, it remembers the time that the latest
completed one read, and every cycle detects a change as `DetectsChange` says. -/
theorem change_detection (services : Services σ ν) (config : Config) (metrics : Metrics)
    (world : σ) (rounds : List (Round σ)) :
    let job := Job.ofConfig config
    let turns := watched services job metrics world rounds
    turns.map (Turn.through Recorded.world) = history services job metrics world rounds ∧
    turns.length = rounds.length ∧
    job.cursor = none ∧
    (jobAfter job turns).cursor = lastCompleted? turns ∧
    ∀ i : Fin turns.length,
      (jobAfter job (turns.take i)).cursor = lastCompleted? (turns.take i) ∧
      DetectsChange (jobAfter job (turns.take i)) turns[i] := by
  intro job turns
  have hcursor := cursor_eq_lastCompleted services job rfl metrics world rounds
  refine ⟨watched_through services job metrics world rounds, ?_, rfl, ?_, fun i => ⟨?_, ?_⟩⟩
  · rw [← length_history services job metrics world rounds,
      ← watched_through services job metrics world rounds, List.length_map]
  · have hall := hcursor turns.length (Nat.le_refl _)
    rwa [List.take_length] at hall
  · exact hcursor i (Nat.le_of_lt i.isLt)
  · exact (watched_course services job metrics world rounds i i.isLt).detectsChange

end CredentialRelay.Cycle
