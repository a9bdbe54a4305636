import CredentialRelay.Cycle.Memory

/-!
# Cycles in memory

Services in memory answer from what they were given and not from what was asked of them before. So
what becomes of an entry depends on that entry alone, and a cycle works on its entries as if each
were the only one.

* `Memory.outcomeOf m key value`: what becomes of an entry.
* `EntryOutcome.write? mount`: what is stored along with an outcome.

Results:
* `storeEntries_memory`: entries are worked on one by one, and what is stored stays.
* `run_memory`: whether a cycle is given up depends on no entry, and of one that is not the outcomes
  of the entries tell everything.
-/

namespace CredentialRelay

open Log CredentialRelay.Cycle

/-- What becomes of an entry. -/
def Memory.outcomeOf (m : Memory) (key value : String) : EntryOutcome :=
  match Credential.Kind.ofKey? key with
  | none => .unsupported
  | some kind =>
    match Credential.parse kind value with
    | .error fault => .failed kind (.fault fault)
    | .ok credential =>
      match m.denial? credential.path with
      | some failure => .failed kind (.store failure)
      | none => .stored kind credential

/-- The record of an entry. -/
def Memory.record (m : Memory) (entry : String × String) : EntryRecord :=
  ⟨entry.1, m.outcomeOf entry.1 entry.2, []⟩

namespace Cycle

/-- What is stored along with an outcome. -/
def EntryOutcome.write? (mount : String) : EntryOutcome → Option StoredCredential
  | .stored _ credential => some ⟨mount, credential.path, credential.attributes⟩
  | _ => none

/-- What is stored along with the outcome of an entry. -/
def EntryRecord.write? (mount : String) (record : EntryRecord) : Option StoredCredential :=
  record.outcome.write? mount

/-! ## Entries -/

theorem storeEntry_memory (mount key value : String) (m : Memory) :
    storeEntry Memory.services () mount key value m =
      (m.record (key, value),
        { m with writes := m.writes ++ ((m.record (key, value)).write? mount).toList }) := by
  unfold storeEntry EntryRecord.write? Memory.record Memory.outcomeOf
  cases hkind : Credential.Kind.ofKey? key with
  | none => simp [EntryOutcome.write?]
  | some kind =>
    cases hparse : Credential.parse kind value with
    | error fault => simp [hparse, EntryOutcome.write?]
    | ok credential =>
      cases hdenial : m.denial? credential.path with
      | some failure =>
        simp [hparse, hdenial, Memory.services, EntryOutcome.write?, Attempt.ofResult]
      | none =>
        simp [hparse, hdenial, Memory.services, EntryOutcome.write?, Attempt.success,
          Attempt.ofResult]

/-- **Entries are worked on one by one.** -/
theorem storeEntries_memory (mount : String) (entries : List (String × String)) (m : Memory) :
    storeEntries Memory.services () mount entries m =
      (entries.map m.record,
        { m with writes := m.writes ++ (entries.map m.record).filterMap (·.write? mount) }) := by
  induction entries generalizing m with
  | nil =>
    simp [storeEntries]
  | cons entry entries ih =>
    obtain ⟨key, value⟩ := entry
    -- What was stored before is not looked at.
    have hrecord (writes : List StoredCredential) :
        ({ m with writes := writes } : Memory).record = m.record := rfl
    simp only [storeEntries, storeEntry_memory, ih, hrecord, List.map_cons, List.filterMap_cons]
    cases (m.record (key, value)).write? mount <;> simp

/-! ## Cycles -/

/-- A cycle has begun. -/
def startEvent : Event :=
  event .debug .job "Started vault credential sync cycle"

/-- As many entries were found. -/
def foundEvent (size : Nat) : Event :=
  event .debug .job s!"Found {size} secret values to sync"

/-- A turn was completed with records of some entries: what was stored, what was told and what is
reported are theirs, one after another. -/
structure Turn.Accounts (turn : Turn Memory) (job : Job) (m : Memory)
    (records : List EntryRecord) : Prop where
  outcome : turn.outcome = .completed (Report.ofRecords records)
  writes : turn.world.writes = m.writes ++ records.filterMap (·.write? job.credentialMount)
  log : turn.log = (startEvent :: foundEvent records.length ::
    (records.map (fun r => r.outcome.event r.key) ++
      [completionEvent (Report.ofRecords records)])).map (Event.inSpan (span job))

/-- A turn over some number of entries was given up: it ended in some other way, nothing was stored,
and no entry is told of, but how many there are if they were read. -/
structure Turn.GivesUp (turn : Turn Memory) (job : Job) (m : Memory) (size : Nat)
    (ending : Outcome) (closing : Event) : Prop where
  not_completed : ∀ report, ending ≠ .completed report
  outcome : turn.outcome = ending
  writes : turn.world.writes = m.writes
  log : turn.log = (startEvent :: if ending = .sourceUnavailable then [closing]
    else [foundEvent size, closing]).map (Event.inSpan (span job))

theorem read_memory (m : Memory) (namespaceName name : String) (snapshot : Snapshot) :
    (Memory.services.read namespaceName name (m.setSecret snapshot)).result =
      Memory.orFailure m.readFailure snapshot := by
  simp only [Memory.services, Memory.readResult, Memory.setSecret, Attempt.ofResult]
  cases m.readFailure <;> rfl

theorem login_memory (m : Memory) (namespaceName name : String) (snapshot : Snapshot) :
    (Memory.services.login
      (Memory.services.read namespaceName name (m.setSecret snapshot)).world).result =
      Memory.orFailure m.loginFailure () := rfl

theorem flatMap_events (m : Memory) (entries : List (String × String)) :
    (entries.map m.record).flatMap EntryRecord.events =
      (entries.map m.record).map fun r => r.outcome.event r.key := by
  induction entries with
  | nil => rfl
  | cons entry entries ih =>
    rw [List.map_cons, List.flatMap_cons, ih]
    rfl

/-- A turn that works on the entries gives account of them. -/
theorem complete_memory (timing : Timing) (job : Job) (metrics : Metrics) (snapshot : Snapshot)
    (m : Memory) :
    let turn := complete Memory.services timing job metrics snapshot () m
    let records := snapshot.data.entries.map m.record
    turn.outcome = .completed (Report.ofRecords records) ∧
      turn.world.writes = m.writes ++ records.filterMap (·.write? job.credentialMount) ∧
      turn.log = records.map (fun r => r.outcome.event r.key) ++
        [completionEvent (Report.ofRecords records)] := by
  unfold complete
  rw [storeEntries_memory]
  exact ⟨rfl, rfl, congrArg (· ++ _) (flatMap_events m _)⟩

/-- **Whether a cycle is given up depends on no entry.** One that is not gives account of all of
them. -/
theorem run_memory (timing : Timing) (job : Job) (metrics : Metrics) (m : Memory) (time : Instant) :
    let turn (data : Dictionary String) :=
      run Memory.services timing job metrics (m.setSecret ⟨data, time⟩)
    (∃ ending closing, ∀ data, (turn data).GivesUp job m data.size ending closing) ∨
      ∀ data, (turn data).Accounts job m (data.entries.map m.record) := by
  intro turn
  cases hread : m.readFailure with
  | some failure =>
    refine .inl ⟨.sourceUnavailable, readFailureEvent job failure, fun data => ?_⟩
    simp only [turn, run, attempt, read_memory, hread, Memory.orFailure]
    exact ⟨nofun, rfl, rfl, rfl⟩
  | none =>
    by_cases hcursor : job.cursor = some time
    · refine .inl ⟨.unchanged, event .debug .job "No change in sync secret since last cycle",
        fun data => ?_⟩
      simp only [turn, run, attempt, read_memory, hread, Memory.orFailure, proceed, hcursor, if_true]
      exact ⟨nofun, rfl, rfl, rfl⟩
    · cases hlogin : m.loginFailure with
      | some failure =>
        refine .inl ⟨.authenticationFailed, event .error .job
          s!"Failed to authenticate to Vault: {Service.line failure}", fun data => ?_⟩
        simp only [turn, run, attempt, read_memory, login_memory, hread, hlogin, Memory.orFailure,
          proceed, hcursor, if_false]
        exact ⟨nofun, rfl, rfl, rfl⟩
      | none =>
        refine .inr fun data => ?_
        have hcomplete := complete_memory timing job metrics.countCycle ⟨data, time⟩
          (Memory.services.login (Memory.services.read job.namespaceName job.secretName
            (m.setSecret ⟨data, time⟩)).world).world
        simp only [turn, run, attempt, read_memory, login_memory, hread, hlogin, Memory.orFailure,
          proceed, hcursor, if_false]
        obtain ⟨houtcome, hwrites, hlog⟩ := hcomplete
        refine ⟨houtcome, hwrites, ?_⟩
        rw [hlog, List.length_map]
        rfl

end Cycle

end CredentialRelay
