import CredentialRelay.Metrics.Basic

/-!
# Metrics as text

Metrics are shown as families of samples: a line of help, a line with the type, and a line for
every sample.

* Families come in the order of their names, and samples in the order of the values of their
  labels, which are themselves in the order of their names.
* A histogram counts, for each of its bounds, the observations that do not exceed it.
* In the value of a label, backslashes, double quotes and line feeds are escaped.
-/

namespace CredentialRelay.Metrics

/-- One measured value. -/
structure Sample where
  name : String
  labels : List (String × String)
  value : Int
  deriving Repr, DecidableEq

/-- The samples of one metric. -/
structure Family where
  name : String
  help : String
  type : String
  samples : List Sample
  deriving Repr, DecidableEq

/-- How a character is written in the value of a label. -/
def labelChar (c : Char) : List Char :=
  if c = '\\' then ['\\', '\\']
  else if c = '"' then ['\\', '"']
  else if c = '\n' then ['\\', 'n']
  else [c]

/-- A label with its value. -/
def showLabel (label : String × String) : String :=
  label.1 ++ "=\"" ++ String.ofList (label.2.toList.flatMap labelChar) ++ "\""

/-- The line of a sample. -/
def Sample.line (s : Sample) : String :=
  let labels :=
    if s.labels.isEmpty then ""
    else "\x7b" ++ ",".intercalate (s.labels.map showLabel) ++ "\x7d"
  s.name ++ labels ++ " " ++ toString s.value

/-- The lines of a family. -/
def Family.lines (f : Family) : List String :=
  ("# HELP " ++ f.name ++ " " ++ f.help) :: ("# TYPE " ++ f.name ++ " " ++ f.type) ::
    f.samples.map Sample.line

/-- A metric with a single value. -/
def single (name help type : String) (value : Int) : Family :=
  ⟨name, help, type, [⟨name, [], value⟩]⟩

/-- A counter with one label. -/
def labelled (name help label : String) (tally : Tally) : Family :=
  ⟨name, help, "counter", tally.entries.map fun entry => ⟨name, [(label, entry.1)], entry.2⟩⟩

/-- The bounds of the histogram of durations: how they are written, and their milliseconds. -/
def durationBounds : List (String × Int) := [
  ("0.1", 100), ("0.5", 500), ("1", 1000), ("2", 2000), ("5", 5000), ("10", 10000), ("30", 30000)]

/-- The histogram of durations. -/
def durationFamily (durations : List Int) : Family :=
  let name := "vault_cred_sync_cycle_duration_seconds"
  let bucket (bound : String) (count : Nat) : Sample :=
    ⟨name ++ "_bucket", [("le", bound)], count⟩
  ⟨name, "Duration of sync cycles that processed entries, in seconds", "histogram",
    durationBounds.map (fun (bound, millis) =>
      bucket bound (durations.countP fun d => decide (d ≤ millis))) ++
    [bucket "+Inf" durations.length, ⟨name ++ "_count", [], durations.length⟩]⟩

/-- The counter of failed entries. -/
def failureFamily (failures : Dictionary Tally) : Family :=
  let name := "vault_cred_sync_credential_failures_total"
  ⟨name, "Total number of credential entries skipped, by credential type and reason", "counter",
    failures.entries.flatMap fun (reason, tally) =>
      tally.entries.map fun (kind, count) => ⟨name, [("reason", reason), ("type", kind)], count⟩⟩

/-- All metrics. -/
def families (m : Metrics) : List Family := [
  failureFamily m.failures,
  labelled "vault_cred_sync_credentials_written_total"
    "Total number of credentials written to Vault, by credential type" "type" m.written,
  durationFamily m.durations,
  labelled "vault_cred_sync_cycle_errors_total"
    "Total number of sync cycles aborted, by stage" "stage" m.cycleErrors,
  single "vault_cred_sync_cycles_total" "Total number of sync cycles started" "counter" m.cycles,
  single "vault_cred_sync_cycles_unchanged_total"
    "Total number of sync cycles skipped because the source secret was unchanged" "counter"
    m.unchanged,
  single "vault_cred_sync_last_successful_sync_timestamp_seconds"
    "Unix time of the last sync cycle that attempted every entry, including cycles with failed entries"
    "gauge" m.lastSync,
  single "vault_cred_sync_unsupported_keys_total"
    "Total number of entries skipped because their key prefix is not supported" "counter"
    m.unsupported]

/-- The families that have a sample in some class, with these samples only. -/
def selected (keep : Sample → Bool) (families : List Family) : List Family :=
  (families.map fun f => { f with samples := f.samples.filter keep }).filter
    fun f => !f.samples.isEmpty

/-- The lines of all samples that are not zero. -/
def nonzeroLines (families : List Family) : List String :=
  (selected (fun s => s.value != 0) families).flatMap Family.lines

end CredentialRelay.Metrics
