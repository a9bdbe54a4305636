import CredentialRelay.Proofs.Cycle.ChangeDetection
import CredentialRelay.Proofs.Cycle.Fates
import CredentialRelay.Proofs.Cycle.Isolation
import CredentialRelay.Proofs.Cycle.Telling
import CredentialRelay.Proofs.Metrics.Counting

/-!
# Accounts of cycles

Reports, metrics and logs give account of the same things: of every cycle how it ended, and of every
entry what became of it. Nothing is counted twice or left out, over any number of cycles.

* `Turn.Ledger`: the records of a turn. A cycle that was completed has one for every entry, in
  ascending order of the keys; one that was given up has none.
* What the job itself tells is what stands in its name. Services tell other events in between, but
  none of these (`Services.Tell`): remote services do not (`Surroundings.services_tell_not_job`), nor
  do services in memory (`Memory.services_tell`).
* `Metrics.AccountFor`: what is counted after some turns with their records.

Results:
* `run_ledger`: every cycle has a ledger, and counts what is in it.
* `Metrics.AccountFor.step`: counting one more turn keeps the account.
* `cycles_accounted`: both, for every history that begins with nothing counted.
-/

namespace CredentialRelay

open Log CredentialRelay.Cycle

variable {σ ν : Type}

namespace Cycle

/-! ## Outcomes -/

/-- The report of a cycle; one that was given up has nothing to report. -/
def Outcome.report : Outcome → Report
  | .completed report => report
  | _ => ⟨0, 0, 0⟩

/-- Whether an entry of some kind was stored. -/
def EntryOutcome.isStored (kind : Credential.Kind) : EntryOutcome → Bool
  | .stored own _ => own == kind
  | _ => false

/-- Whether an entry of some kind failed at some stage. -/
def EntryOutcome.failedAt (kind : Credential.Kind) (reason : String) : EntryOutcome → Bool
  | .failed own failure => own == kind && failure.reason == reason
  | _ => false

theorem Report.ofRecords_cons (record : EntryRecord) (records : List EntryRecord) :
    Report.ofRecords (record :: records) = (Report.ofRecords records).add record.outcome :=
  Report.ofRecords_around [] records record

/-- Every entry is reported once. -/
theorem Report.sum_ofRecords (records : List EntryRecord) :
    (Report.ofRecords records).written + (Report.ofRecords records).failed +
      (Report.ofRecords records).unsupported = records.length := by
  induction records with
  | nil => rfl
  | cons record records ih =>
    rw [Report.ofRecords_cons, List.length_cons]
    cases record.outcome <;> simp only [Report.add] <;> omega

/-! ## Counting records -/

/-- No two kinds have one label. -/
theorem label_inj {a b : Credential.Kind} : a.label = b.label ↔ a = b := by
  cases a <;> cases b <;> decide

/-- What metrics gain from some records. -/
structure Gains (before after : Metrics) (records : List EntryRecord) : Prop where
  written : after.written.total = before.written.total + (Report.ofRecords records).written
  failed : after.failureTotal = before.failureTotal + (Report.ofRecords records).failed
  unsupported : after.unsupported = before.unsupported + (Report.ofRecords records).unsupported
  stored : ∀ kind, Tally.count after.written kind.label =
    Tally.count before.written kind.label + records.countP fun r => r.outcome.isStored kind
  failures : ∀ kind reason, after.failureCount kind.label reason =
    before.failureCount kind.label reason + records.countP fun r => r.outcome.failedAt kind reason

/-- One outcome is counted once. -/
theorem gains_count (m : Metrics) (record : EntryRecord) :
    Gains m (record.outcome.count m) [record] := by
  obtain ⟨key, outcome, log⟩ := record
  cases outcome with
  | unsupported => exact ⟨rfl, rfl, rfl, fun _ => rfl, fun _ _ => rfl⟩
  | stored kind credential =>
    refine ⟨Tally.total_bump m.written kind.label, rfl, rfl, fun other => ?_, fun _ _ => rfl⟩
    show Tally.count (m.written.bump kind.label) other.label = _
    rw [Tally.count_bump]
    simp [EntryOutcome.isStored, label_inj, eq_comm (a := other), List.countP_cons]
  | failed kind failure =>
    refine ⟨rfl, m.failureTotal_countFailure kind.label failure.reason, rfl, fun _ => rfl,
      fun other reason => ?_⟩
    show (m.countFailure kind.label failure.reason).failureCount other.label reason = _
    rw [m.failureCount_countFailure]
    simp [EntryOutcome.failedAt, label_inj, eq_comm (a := other), eq_comm (a := reason),
      List.countP_cons]

theorem Gains.trans {a b c : Metrics} {first : EntryRecord} {rest : List EntryRecord}
    (h : Gains a b [first]) (h' : Gains b c rest) : Gains a c (first :: rest) := by
  have hreport : Report.ofRecords (first :: rest) =
      ⟨(Report.ofRecords [first]).written + (Report.ofRecords rest).written,
        (Report.ofRecords [first]).failed + (Report.ofRecords rest).failed,
        (Report.ofRecords [first]).unsupported + (Report.ofRecords rest).unsupported⟩ := by
    rw [Report.ofRecords_cons, Report.ofRecords_cons]
    cases first.outcome <;> simp [Report.add, Report.ofRecords, Nat.add_comm]
  exact {
    written := by rw [h'.written, h.written, hreport, Nat.add_assoc]
    failed := by rw [h'.failed, h.failed, hreport, Nat.add_assoc]
    unsupported := by rw [h'.unsupported, h.unsupported, hreport, Nat.add_assoc]
    stored := fun kind => by
      rw [h'.stored, h.stored, Nat.add_assoc, ← List.countP_append, List.singleton_append]
    failures := fun kind reason => by
      rw [h'.failures, h.failures, Nat.add_assoc, ← List.countP_append, List.singleton_append] }

/-- **Every record is counted once.** -/
theorem gains_records : ∀ (records : List EntryRecord) (m : Metrics),
    Gains m (records.foldl (fun m record => record.outcome.count m) m) records
  | [], _ => ⟨rfl, rfl, rfl, fun _ => rfl, fun _ _ => rfl⟩
  | record :: records, m =>
    (gains_count m record).trans (gains_records records (record.outcome.count m))

/-- Counting entries counts no cycles. -/
theorem foldl_count_cycles : ∀ (records : List EntryRecord) (m : Metrics),
    let counted := records.foldl (fun m record => record.outcome.count m) m
    counted.cycles = m.cycles ∧ counted.cycleErrors = m.cycleErrors ∧
      counted.unchanged = m.unchanged ∧ counted.durations = m.durations
  | [], _ => ⟨rfl, rfl, rfl, rfl⟩
  | record :: records, m => by
    have hrest := foldl_count_cycles records (record.outcome.count m)
    have hfirst : (record.outcome.count m).cycles = m.cycles ∧
        (record.outcome.count m).cycleErrors = m.cycleErrors ∧
        (record.outcome.count m).unchanged = m.unchanged ∧
        (record.outcome.count m).durations = m.durations := by
      cases record.outcome <;> exact ⟨rfl, rfl, rfl, rfl⟩
    obtain ⟨hcycles, herrors, hunchanged, hdurations⟩ := hrest
    exact ⟨hcycles.trans hfirst.1, herrors.trans hfirst.2.1, hunchanged.trans hfirst.2.2.1,
      hdurations.trans hfirst.2.2.2⟩

/-! ## One cycle -/

/-- What the job itself tells in a turn. -/
def Turn.told (turn : Turn σ) : List Event :=
  turn.log.filter fun e => e.component = .job

/-- A turn was completed with one record for every entry of a snapshot. -/
structure Turn.Settles (services : Services σ ν) (turn : Turn (Recorded σ)) (snapshot : Snapshot)
    (records : List EntryRecord) : Prop where
  outcome : turn.outcome = .completed (Report.ofRecords records)
  /-- The secret was read, a session was opened, and every entry met its fate. -/
  calls : ∃ stores,
    turn.calls = .read turn.job.namespaceName turn.job.secretName (.ok snapshot) ::
      .login (.ok ()) :: stores ∧
    Fates turn.job.credentialMount snapshot.data.entries stores records
  keys : records.map EntryRecord.key = snapshot.data.keys
  ascending : (records.map EntryRecord.key).Pairwise (· < ·)
  reported : (Report.ofRecords records).written + (Report.ofRecords records).failed +
    (Report.ofRecords records).unsupported = snapshot.data.size
  /-- One event for every entry, in the order of the keys. -/
  told : services.Tell (fun e => e.component ≠ .job) →
    turn.told = (startEvent :: foundEvent snapshot.data.size ::
      (records.map (fun r => r.outcome.event r.key) ++
        [completionEvent (Report.ofRecords records)])).map (Event.inSpan (span turn.job))

/-- The records of a turn. -/
inductive Turn.Ledger (services : Services σ ν) (turn : Turn (Recorded σ)) :
    List EntryRecord → Prop
  | givenUp (h : turn.outcome.isCompleted = false) : Ledger services turn []
  | completed {snapshot : Snapshot} {records : List EntryRecord}
      (h : turn.Settles services snapshot records) : Ledger services turn records

/-- What is counted after a turn that ended in some way with some records. -/
def countTurn (m : Metrics) (timing : Timing) (records : List EntryRecord) : Outcome → Metrics
  | .sourceUnavailable => m.countCycle.countCycleError "source"
  | .unchanged => m.countCycle.countUnchanged
  | .authenticationFailed => m.countCycle.countCycleError "auth"
  | .completed _ =>
    ((records.foldl (fun m record => record.outcome.count m) m.countCycle).observeDuration
      timing.millis).setLastSync timing.unixSeconds

section

variable (m : Metrics) (timing : Timing) (records : List EntryRecord) (outcome : Outcome)

theorem cycles_countTurn : (countTurn m timing records outcome).cycles = m.cycles + 1 := by
  cases outcome with
  | completed report => exact (foldl_count_cycles records m.countCycle).1
  | _ => rfl

theorem source_countTurn : Tally.count (countTurn m timing records outcome).cycleErrors "source" =
    Tally.count m.cycleErrors "source" + if outcome = .sourceUnavailable then 1 else 0 := by
  cases outcome with
  | completed report =>
    exact congrArg (Tally.count · "source") (foldl_count_cycles records m.countCycle).2.1
  | sourceUnavailable => exact Tally.count_bump m.cycleErrors "source" "source"
  | authenticationFailed => exact Tally.count_bump m.cycleErrors "auth" "source"
  | unchanged => rfl

theorem auth_countTurn : Tally.count (countTurn m timing records outcome).cycleErrors "auth" =
    Tally.count m.cycleErrors "auth" + if outcome = .authenticationFailed then 1 else 0 := by
  cases outcome with
  | completed report =>
    exact congrArg (Tally.count · "auth") (foldl_count_cycles records m.countCycle).2.1
  | sourceUnavailable => exact Tally.count_bump m.cycleErrors "source" "auth"
  | authenticationFailed => exact Tally.count_bump m.cycleErrors "auth" "auth"
  | unchanged => rfl

theorem unchanged_countTurn : (countTurn m timing records outcome).unchanged =
    m.unchanged + if outcome = .unchanged then 1 else 0 := by
  cases outcome with
  | completed report => exact (foldl_count_cycles records m.countCycle).2.2.1
  | _ => rfl

theorem durations_countTurn : (countTurn m timing records outcome).durations.length =
    m.durations.length + if outcome.isCompleted then 1 else 0 := by
  cases outcome with
  | completed report =>
    exact congrArg (·.length + 1) (foldl_count_cycles records m.countCycle).2.2.2
  | _ => rfl

end

/-- What a turn reports is what its records say. -/
theorem Turn.Ledger.report {services : Services σ ν} {turn : Turn (Recorded σ)}
    {records : List EntryRecord} (h : turn.Ledger services records) :
    turn.outcome.report = Report.ofRecords records := by
  cases h with
  | givenUp h =>
    generalize turn.outcome = outcome at h
    cases outcome with
    | completed report => cases h
    | _ => rfl
  | completed h => rw [h.outcome]; rfl

/-- What is counted of the entries is what the records say. -/
theorem Turn.Ledger.gains {services : Services σ ν} {turn : Turn (Recorded σ)}
    {records : List EntryRecord} (h : turn.Ledger services records) (m : Metrics)
    (timing : Timing) : Gains m (countTurn m timing records turn.outcome) records := by
  cases h with
  | givenUp h =>
    generalize turn.outcome = outcome at h
    cases outcome with
    | completed report => cases h
    | _ => exact ⟨rfl, rfl, rfl, fun _ => rfl, fun _ _ => rfl⟩
  | completed h =>
    have hgains := gains_records records m.countCycle
    rw [h.outcome]
    exact ⟨hgains.written, hgains.failed, hgains.unsupported, hgains.stored, hgains.failures⟩

/-- The job tells one event about each record. -/
theorem filter_events {records : List EntryRecord}
    (h : ∀ record ∈ records, ∀ e ∈ record.log, e.component ≠ .job) :
    ((records.flatMap EntryRecord.events).filter fun e => e.component = .job) =
      records.map fun r => r.outcome.event r.key := by
  induction records with
  | nil => rfl
  | cons record records ih =>
    obtain ⟨hfirst, hrest⟩ := List.forall_mem_cons.mp h
    have hlog : (record.log.filter fun e => e.component = .job) = [] :=
      List.filter_eq_nil_iff.mpr fun e he => by simpa using hfirst e he
    have hown : (record.outcome.event record.key).component = .job := by
      cases record.outcome <;> rfl
    rw [List.flatMap_cons, List.filter_append, ih hrest, EntryRecord.events, List.filter_append,
      hlog, List.filter_cons_of_pos (by simpa using hown), List.filter_nil]
    rfl

/-- A span does not change who tells an event. -/
theorem filter_inSpan (span : Span) (events : List Event) :
    ((events.map (Event.inSpan span)).filter fun e => e.component = .job) =
      (events.filter fun e => e.component = .job).map (Event.inSpan span) :=
  List.filter_map

/-- A turn that goes on with an open session settles every entry. -/
theorem complete_settles (services : Services σ ν) (timing : Timing) (job : Job)
    (metrics : Metrics) (snapshot : Snapshot) (session : ν) (r : Recorded σ) :
    let turn := complete services.recorded timing job metrics snapshot session r
    ∃ stores records, turn.world.calls = r.calls ++ stores ∧
      Fates job.credentialMount snapshot.data.entries stores records ∧
      turn.outcome = .completed (Report.ofRecords records) ∧
      turn.job = { job with cursor := some snapshot.lastUpdated } ∧
      turn.metrics = ((records.foldl (fun m record => record.outcome.count m)
        metrics).observeDuration timing.millis).setLastSync timing.unixSeconds ∧
      (services.Tell (fun e => e.component ≠ .job) → turn.told =
        records.map (fun r => r.outcome.event r.key) ++
          [completionEvent (Report.ofRecords records)]) := by
  obtain ⟨stores, hcalls, hfates⟩ :=
    storeEntries_fates services session job.credentialMount snapshot.data.entries r
  refine ⟨stores, _, hcalls, hfates, rfl, rfl, rfl, fun htell => ?_⟩
  have htold := storeEntries_tell htell.recorded session job.credentialMount
    snapshot.data.entries r
  show List.filter _ (_ ++ _) = _
  rw [List.filter_append, filter_events htold]
  congr 1
  unfold completionEvent
  split <;> rfl

/-- **Every cycle has a ledger**, and counts what is in it. -/
theorem run_ledger (services : Services σ ν) (timing : Timing) (job : Job) (metrics : Metrics)
    {r : Recorded σ} (hr : r.calls = []) :
    let turn := run services.recorded timing job metrics r
    ∃ records, turn.Ledger services records ∧
      turn.metrics = countTurn metrics timing records turn.outcome := by
  have hquiet {log : List Event} (h : ∀ e ∈ log, e.component ≠ .job) :
      (log.filter fun e => e.component = .job) = [] :=
    List.filter_eq_nil_iff.mpr fun e he => by simpa using h e he
  unfold run attempt
  have hread : (services.recorded.read job.namespaceName job.secretName r).world.calls =
      r.calls ++ [.read job.namespaceName job.secretName
        (services.recorded.read job.namespaceName job.secretName r).result] := rfl
  have hreading := fun h : services.Tell fun e => e.component ≠ .job =>
    h.recorded.read job.namespaceName job.secretName r
  generalize services.recorded.read job.namespaceName job.secretName r = reading at hread hreading
  obtain ⟨result, readLog, world⟩ := reading
  cases result with
  | error failure => exact ⟨[], .givenUp rfl, rfl⟩
  | ok snapshot =>
    simp only
    unfold proceed
    split
    · exact ⟨[], .givenUp rfl, rfl⟩
    · have hlogin : (services.recorded.login world).world.calls =
          world.calls ++ [.login ((services.recorded.login world).result.map fun _ => ())] := rfl
      have hopening := fun h : services.Tell fun e => e.component ≠ .job => h.recorded.login world
      generalize services.recorded.login world = opening at hlogin hopening
      obtain ⟨result, openLog, world'⟩ := opening
      cases result with
      | error failure => exact ⟨[], .givenUp rfl, rfl⟩
      | ok session =>
        simp only
        obtain ⟨stores, records, hstores, hfates, houtcome, hjob, hmetrics, htold⟩ :=
          complete_settles services timing job metrics.countCycle snapshot session world'
        generalize complete services.recorded timing job metrics.countCycle snapshot session world' =
          turn at hstores houtcome hjob hmetrics htold
        obtain ⟨outcome, job', metrics', log, world''⟩ := turn
        simp only at hstores houtcome hjob hmetrics
        subst houtcome hjob hmetrics
        refine ⟨records, @Turn.Ledger.completed σ ν services _ snapshot records ⟨rfl,
          ⟨stores, ?_, hfates⟩, hfates.keys, ?_, ?_, fun htell => ?_⟩, rfl⟩
        · show world''.calls = _
          rw [hstores, hlogin, hread, hr]
          rfl
        · rw [hfates.keys]
          exact List.pairwise_map.mpr snapshot.data.ascending
        · rw [Report.sum_ofRecords, ← List.length_map EntryRecord.key, hfates.keys, List.length_map]
          rfl
        · have hlog : (log.filter fun e => e.component = .job) = _ := htold htell
          show List.filter _ (List.map _ (startEvent :: (readLog ++
            foundEvent snapshot.data.size :: (openLog ++ log)))) = _
          rw [filter_inSpan, List.filter_cons_of_pos rfl, List.filter_append,
            hquiet (hreading htell), List.nil_append, List.filter_cons_of_pos rfl,
            List.filter_append, hquiet (hopening htell), hlog]
          rfl

end Cycle

/-! ## Histories -/

/-- What is counted after some turns, all of whose entries have these records. -/
structure Metrics.AccountFor (m : Metrics) (turns : List (Turn σ)) (records : List EntryRecord) :
    Prop where
  cycles : m.cycles = turns.length
  source : Tally.count m.cycleErrors "source" =
    turns.countP fun turn => turn.outcome = .sourceUnavailable
  auth : Tally.count m.cycleErrors "auth" =
    turns.countP fun turn => turn.outcome = .authenticationFailed
  unchanged : m.unchanged = turns.countP fun turn => turn.outcome = .unchanged
  durations : m.durations.length = turns.countP fun turn => turn.outcome.isCompleted
  written : m.written.total = (turns.map fun turn => turn.outcome.report.written).sum
  failed : m.failureTotal = (turns.map fun turn => turn.outcome.report.failed).sum
  unsupported : m.unsupported = (turns.map fun turn => turn.outcome.report.unsupported).sum
  stored : ∀ kind, Tally.count m.written kind.label =
    records.countP fun r => r.outcome.isStored kind
  failures : ∀ kind reason, m.failureCount kind.label reason =
    records.countP fun r => r.outcome.failedAt kind reason

namespace Metrics.AccountFor

variable {m : Metrics} {turns : List (Turn (Recorded σ))} {turn : Turn (Recorded σ)}
  {records own : List EntryRecord}

theorem zero : Metrics.zero.AccountFor ([] : List (Turn (Recorded σ))) [] :=
  ⟨rfl, rfl, rfl, rfl, rfl, rfl, rfl, rfl, fun _ => rfl, fun _ _ => rfl⟩

/-- Every cycle is counted as what it was. -/
theorem balance (h : m.AccountFor turns records) :
    m.cycles = Tally.count m.cycleErrors "source" + Tally.count m.cycleErrors "auth" + m.unchanged +
      m.durations.length := by
  rw [h.cycles, h.source, h.auth, h.unchanged, h.durations]
  clear h
  induction turns with
  | nil => rfl
  | cons turn turns ih =>
    simp only [List.length_cons, List.countP_cons, ih]
    cases turn.outcome <;> simp [Outcome.isCompleted] <;> omega

/-- **Counting one more turn keeps the account.** -/
theorem step {services : Services σ ν} {timing : Timing} (h : m.AccountFor turns records)
    (hledger : turn.Ledger services own)
    (hmetrics : turn.metrics = countTurn m timing own turn.outcome) :
    turn.metrics.AccountFor (turns ++ [turn]) (records ++ own) := by
  have hgains := hledger.gains m timing
  rw [← hmetrics] at hgains
  exact {
    cycles := by rw [hmetrics, cycles_countTurn, h.cycles, List.length_append]; rfl
    source := by
      rw [hmetrics, source_countTurn, h.source, List.countP_append, List.countP_singleton]
      simp
    auth := by
      rw [hmetrics, auth_countTurn, h.auth, List.countP_append, List.countP_singleton]
      simp
    unchanged := by
      rw [hmetrics, unchanged_countTurn, h.unchanged, List.countP_append, List.countP_singleton]
      simp
    durations := by
      rw [hmetrics, durations_countTurn, h.durations, List.countP_append, List.countP_singleton]
    written := by rw [hgains.written, h.written, ← hledger.report]; simp
    failed := by rw [hgains.failed, h.failed, ← hledger.report]; simp
    unsupported := by rw [hgains.unsupported, h.unsupported, ← hledger.report]; simp
    stored := fun kind => by rw [hgains.stored, h.stored, List.countP_append]
    failures := fun kind reason => by rw [hgains.failures, h.failures, List.countP_append] }

end Metrics.AccountFor

namespace Cycle

/-- What is counted after some turns. -/
def metricsAfter (metrics : Metrics) (turns : List (Turn σ)) : Metrics :=
  turns.foldl (fun _ turn => turn.metrics) metrics

/-- **Every further turn has its ledger, and is counted.** -/
theorem watched_accounted (services : Services σ ν) : ∀ (rounds : List (Round σ)) (job : Job)
    {metrics : Metrics} (r : Recorded σ) {before : List (Turn (Recorded σ))}
    {earlier : List EntryRecord}, metrics.AccountFor before earlier →
    let turns := history services.recorded job metrics r (rounds.map Round.watched)
    ∃ ledgers, List.Forall₂ (Turn.Ledger services) turns ledgers ∧
      (metricsAfter metrics turns).AccountFor (before ++ turns) (earlier ++ ledgers.flatten)
  | [], _, _, _, _, _, h => ⟨[], .nil, by simpa [history, metricsAfter] using h⟩
  | round :: rounds, job, metrics, r, before, earlier, h => by
    obtain ⟨own, hledger, hmetrics⟩ := run_ledger services round.timing job metrics
      (r := (Round.watched round).change r) rfl
    obtain ⟨ledgers, hledgers, haccount⟩ := watched_accounted services rounds _ _
      (h.step hledger hmetrics)
    refine ⟨own :: ledgers, .cons hledger hledgers, ?_⟩
    rw [List.append_assoc, List.append_assoc] at haccount
    exact haccount

/-- **Every cycle and every entry is accounted for.** Over any cycles that begin with nothing
counted, whatever the source and the vault answered and however the world changed between them,
every turn has a ledger, and the metrics are what the turns and their ledgers say. -/
theorem cycles_accounted (services : Services σ ν) (job : Job) (world : σ)
    (rounds : List (Round σ)) :
    let turns := watched services job Metrics.zero world rounds
    let metrics := metricsAfter Metrics.zero turns
    turns.map (Turn.through Recorded.world) =
      history services job Metrics.zero world rounds ∧
    turns.length = rounds.length ∧
    metrics.cycles = Tally.count metrics.cycleErrors "source" +
      Tally.count metrics.cycleErrors "auth" + metrics.unchanged + metrics.durations.length ∧
    ∃ ledgers, List.Forall₂ (Turn.Ledger services) turns ledgers ∧
      metrics.AccountFor turns ledgers.flatten := by
  intro turns metrics
  obtain ⟨ledgers, hledgers, haccount⟩ :=
    watched_accounted services rounds job ⟨world, []⟩ Metrics.AccountFor.zero
  refine ⟨watched_through services job Metrics.zero world rounds, ?_, haccount.balance, ledgers,
    hledgers, haccount⟩
  rw [← length_history services job Metrics.zero world rounds,
    ← watched_through services job Metrics.zero world rounds, List.length_map]

end Cycle

end CredentialRelay
