import CredentialRelay.CommandLine.Program
import CredentialRelay.Timeline
import Std.Time.DateTime.Timestamp

/-!
# The executable

Takes the arguments, the environment and the clock, and prints what comes of a call. No transport
is linked in, so the cluster and the vault are out of reach: a cycle tells so and is given up.
-/

namespace CredentialRelay.Main

/-- The variables that are looked at. -/
def variableNames : List String := [
  "LOG_FORMAT", "METRICS_PORT", "POD_NAMESPACE", "RUST_LOG", "VAULT_ADDR", "VAULT_AUTH_METHOD",
  "VAULT_CREDENTIAL_MOUNT", "VAULT_CRED_SYNC_FREQUENCY", "VAULT_CRED_SYNC_SECRET_NAME",
  "VAULT_CRED_SYNC_SECRET_NAMESPACE", "VAULT_HTTP_TIMEOUT_SECS", "VAULT_K8S_AUTH_MOUNT",
  "VAULT_ROLE", "VAULT_SA_TOKEN_PATH", "VAULT_SECRET_NAME", "VAULT_SECRET_NAMESPACE",
  "VAULT_SECRET_TOKEN_KEY_NAME"]

/-- The variables that are set. -/
def environment : IO Environment := do
  let entries ← variableNames.filterMapM fun name => do
    return (← IO.getEnv name).map fun value => (name, value)
  return Dictionary.ofList entries

/-- What the clock shows. -/
def now : IO Instant := do
  let time ← Std.Time.Timestamp.now
  let nanos := time.toNanosecondsSinceUnixEpoch.val
  return ⟨nanos / Instant.nanosPerSecond, (nanos % Instant.nanosPerSecond).toNat⟩

/-- Services that nothing leads to. -/
def surroundings : Surroundings :=
  ⟨⟨.unreachable, [], []⟩, ⟨.unreachable, .joined, [], []⟩, Dictionary.empty⟩

/-- What was built. -/
def build : Build := ⟨"0.1.0", "unknown", "unknown"⟩

/-- Prints a text at once. -/
def tell (text : String) : IO Unit := do
  IO.print text
  (← IO.getStdout).flush

/-- Prints what comes of a call. -/
def finish (completion : Completion) : IO UInt32 := do
  tell completion.output
  IO.eprint completion.errors
  return completion.exitCode.toUInt32

/-- Sleeps for some milliseconds, an hour at a time. -/
def sleep (millis : Nat) : IO Unit := do
  for _ in [0 : millis / 3600000] do
    IO.sleep 3600000
  IO.sleep (millis % 3600000).toUInt32

/-- Waits for the next cycle of the schedule, runs it, and starts over. -/
partial def cycles (started : Program.Started) (job : Job) (metrics : Metrics) : IO UInt32 := do
  let start ← now
  match started.schedule.next? start with
  | none =>
    tell (started.logging.lines start [Timeline.exhaustedEvent job])
    sleep (Timeline.recheckSeconds * 1000)
    cycles started job metrics
  | some next =>
    tell (started.logging.lines start [Timeline.waitEvent next])
    sleep (Timeline.sleep start next)
    let time ← now
    let turn := Cycle.run (Surroundings.services started.config.vault) ⟨0, time.seconds⟩ job metrics
      surroundings
    tell (started.logging.lines time turn.log)
    cycles started turn.job turn.metrics

/-- Calls the program. -/
def call (args : List String) : IO UInt32 := do
  let machine : Machine := ⟨build, ← environment, ← now, surroundings⟩
  match Command.parse args with
  | .error misuse => finish (Program.misused misuse)
  | .ok command =>
    match Program.perform? machine command, Program.start machine with
    | some completion, _ | none, .error completion => finish completion
    | none, .ok started =>
      let job := Job.ofConfig started.config
      tell (started.output ++ started.logging.lines machine.now [Timeline.startEvent job])
      cycles started job Metrics.zero

end CredentialRelay.Main

/-- The program. -/
def main (args : List String) : IO UInt32 :=
  CredentialRelay.Main.call args
