import CredentialRelay.Config
import CredentialRelay.Cycle.Entry

/-!
# Cycles

A cycle reads the secret. If its time is the one of the last completed cycle, nothing has changed
and the cycle ends. Otherwise it opens a session with the vault, works on every entry, and
remembers the time.

* A cycle that cannot read the secret or open a session is given up, and remembers nothing new.
* That there is no secret is no error worth telling, but the cycle is given up all the same.
* An entry that fails does not keep the cycle from being completed.

Models `run_cycle` (`run`). What the clocks show of a cycle is given as its `Timing`.

Out of scope: a cycle that is cut off.
-/

namespace CredentialRelay

open Log CredentialRelay.Cycle

/-- The work that is repeated: what is copied where, and what was copied last. -/
structure Job where
  secretName : String
  namespaceName : String
  frequency : String
  credentialMount : String
  /-- The time of the secret in the last completed cycle. -/
  cursor : Option Instant
  deriving Repr, DecidableEq

namespace Job

/-- The work of some settings, before its first cycle. -/
def ofConfig (config : Config) : Job :=
  ⟨config.secretName, config.namespaceName, config.frequency, config.vault.credentialMount, none⟩

/-- What is shown of the work. -/
def describe (job : Job) : String :=
  let cursor := match job.cursor with
    | some t => "Some(" ++ t.describe ++ ")"
    | none => "None"
  "VaultCredSync \x7b secret_name: " ++ Text.quoted job.secretName ++ ", namespace: " ++
    Text.quoted job.namespaceName ++ ", frequency: " ++ Text.quoted job.frequency ++
    ", last_updated_time: " ++ cursor ++ ", .. \x7d"

end Job

namespace Cycle

/-- How a cycle ended. -/
inductive Outcome where
  | sourceUnavailable
  | unchanged
  | authenticationFailed
  | completed (report : Report)
  deriving Repr, DecidableEq

/-- What is shown of an outcome. -/
def Outcome.describe : Outcome → String
  | .sourceUnavailable => "SourceUnavailable"
  | .unchanged => "Unchanged"
  | .authenticationFailed => "AuthenticationFailed"
  | .completed report => "Completed(" ++ report.describe ++ ")"

/-- What the clock says about a cycle: how long it took, and when it was completed. -/
structure Timing where
  millis : Int
  unixSeconds : Int
  deriving Repr, DecidableEq

/-- What came of a cycle. -/
structure Turn (σ : Type) where
  outcome : Outcome
  job : Job
  metrics : Metrics
  log : List Event
  world : σ

/-- The span of a cycle. -/
def span (job : Job) : Span :=
  ⟨"sync.cycle", .job, [("secret.name", job.secretName), ("secret.namespace", job.namespaceName)]⟩

/-- The event about a secret that cannot be read. -/
def readFailureEvent (job : Job) (failure : Failure Service.Cause) : Event :=
  if failure.causes.any Service.Cause.isNotFound then
    event .debug .job
      s!"Sync secret {job.namespaceName}/{job.secretName} not found, nothing to sync"
  else event .error .job s!"Failed to read sync secret: {Service.line failure}"

/-- The event about a completed cycle. -/
def completionEvent (r : Report) : Event :=
  if 0 < r.failed then
    event .warn .job
      s!"Vault credential sync completed with failures: {r.written} written, {r.failed} failed, {r.unsupported} unsupported"
  else
    event .debug .job
      s!"Vault credential sync completed: {r.written} written, {r.unsupported} unsupported"

variable {σ ν : Type}

/-- Works on the entries of a snapshot through a session, and remembers its time. -/
def complete (services : Services σ ν) (timing : Timing) (job : Job) (metrics : Metrics)
    (snapshot : Snapshot) (session : ν) (world : σ) : Turn σ :=
  let (records, world) :=
    storeEntries services session job.credentialMount snapshot.data.entries world
  let report := Report.ofRecords records
  let counted := records.foldl (fun m record => record.outcome.count m) metrics
  { outcome := .completed report
    job := { job with cursor := some snapshot.lastUpdated }
    metrics := (counted.observeDuration timing.millis).setLastSync timing.unixSeconds
    log := records.flatMap EntryRecord.events ++ [completionEvent report]
    world := world }

/-- Goes on with a snapshot. -/
def proceed (services : Services σ ν) (timing : Timing) (job : Job) (metrics : Metrics)
    (snapshot : Snapshot) (world : σ) : Turn σ :=
  if job.cursor = some snapshot.lastUpdated then
    { outcome := .unchanged
      job := job
      metrics := metrics.countUnchanged
      log := [event .debug .job "No change in sync secret since last cycle"]
      world := world }
  else
    let attempt := services.login world
    match attempt.result with
    | .error failure =>
      { outcome := .authenticationFailed
        job := job
        metrics := metrics.countCycleError "auth"
        log := attempt.log ++
          [event .error .job s!"Failed to authenticate to Vault: {Service.line failure}"]
        world := attempt.world }
    | .ok session =>
      let turn := complete services timing job metrics snapshot session attempt.world
      { turn with log := attempt.log ++ turn.log }

/-- Reads the secret and goes on with it. -/
def attempt (services : Services σ ν) (timing : Timing) (job : Job) (metrics : Metrics)
    (world : σ) : Turn σ :=
  let reading := services.read job.namespaceName job.secretName world
  match reading.result with
  | .error failure =>
    { outcome := .sourceUnavailable
      job := job
      metrics := metrics.countCycleError "source"
      log := reading.log ++ [readFailureEvent job failure]
      world := reading.world }
  | .ok snapshot =>
    let turn := proceed services timing job metrics snapshot reading.world
    { turn with
      log := reading.log ++
        event .debug .job s!"Found {snapshot.data.size} secret values to sync" :: turn.log }

/-- Runs one cycle. -/
def run (services : Services σ ν) (timing : Timing) (job : Job) (metrics : Metrics) (world : σ) :
    Turn σ :=
  let turn := attempt services timing job metrics.countCycle world
  { turn with
    log := (event .debug .job "Started vault credential sync cycle" :: turn.log).map
      (Event.inSpan (span job)) }

end Cycle

end CredentialRelay
