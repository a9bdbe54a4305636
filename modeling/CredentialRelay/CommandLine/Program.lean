import CredentialRelay.CommandLine.Help
import CredentialRelay.Cycle.Basic
import CredentialRelay.Cycle.Remote
import CredentialRelay.Log.Filter
import CredentialRelay.Log.Line

/-!
# The program

What the program does when it is called once: it prints help or the next times of a schedule, or it
starts up and runs a single cycle.

* Starting up takes the settings from the environment, begins to log, and refuses settings with
  which no cycle could succeed. Nothing is logged about settings that cannot be taken.
* A cycle that was given up makes the program fail.
* A failure is complained about on the error output, its causes numbered where there are several.

Out of scope: the scheduled run itself (`Timeline`), the signals that end it, and the server for
probes.
-/

namespace CredentialRelay

open Log

/-- How the program was built. -/
structure Build where
  version : String
  builtAt : String
  revision : String
  deriving Repr, DecidableEq

/-- What the program finds when it is called. -/
structure Machine where
  build : Build
  environment : Environment
  now : Instant
  surroundings : Surroundings

/-- What comes of calling the program. -/
structure Completion where
  exitCode : Nat
  output : String
  errors : String
  deriving Repr, DecidableEq

namespace Program

/-- Why the program fails. -/
inductive Cause where
  | loading
  | invalid
  | config (cause : Config.Cause)
  | schedule (cause : Schedule.Cause)
  | exhausted (expression : String)
  | unfinishedCycle
  deriving Repr, DecidableEq

/-- The wording of each cause. -/
def Cause.message : Cause → String
  | .loading => "Failed to load configuration"
  | .invalid => "Invalid configuration"
  | .config cause => cause.message
  | .schedule cause => cause.message
  | .exhausted expression => s!"Schedule '{expression}' has no upcoming fire times"
  | .unfinishedCycle => "Vault credential sync cycle did not complete"

/-- The lines of a text behind a mark, all but the first one indented as far as the mark. -/
def indented (mark : String) (text : String) : String :=
  let margin := String.ofList (List.replicate mark.length ' ')
  mark ++ ("\n" ++ margin).intercalate ((Text.splitAll '\n' text.toList).map String.ofList)

/-- The number in front of a cause. -/
def numberMark (number : Nat) : String :=
  let digits := toString number
  String.ofList (List.replicate (5 - digits.length) ' ') ++ digits ++ ": "

/-- The causes below the outermost one. -/
def showReasons : List String → List String
  | [] => []
  | [reason] => [indented "    " reason]
  | reasons => reasons.mapIdx fun i reason => indented (numberMark i) reason

/-- The complaint about a failure. -/
def complaint (failure : Failure Cause) : String :=
  let reasons := showReasons (failure.below.map Cause.message)
  let below := if reasons.isEmpty then "" else "\n\nCaused by:\n" ++ "\n".intercalate reasons
  "Error: " ++ failure.cause.message ++ below ++ "\n"

/-- The program fails, after some output. -/
def failed (output : String) (failure : Failure Cause) : Completion :=
  ⟨1, output, complaint failure⟩

/-- The program does what it was asked to do. -/
def done (output : String) : Completion :=
  ⟨0, output, ""⟩

/-- How events are told. -/
structure Logging where
  format : Format
  filter : Filter
  deriving Repr, DecidableEq

/-- How settings want events to be told. -/
def Logging.of (environment : Environment) (config : Config) : Logging :=
  ⟨.ofName config.logFormat, .ofSetting (environment.get? "RUST_LOG")⟩

/-- The lines about some events. -/
def Logging.lines (logging : Logging) (now : Instant) (events : List Event) : String :=
  logging.format.lines now.describe (logging.filter.select events)

/-- The event about the beginning. -/
def startEvent (build : Build) : Event :=
  event .info .program
    s!"Starting vault-cred-sync {build.version} (built {build.builtAt}, git {build.revision})"

/-- The event about a finished cycle. -/
def finishEvent (outcome : Cycle.Outcome) : Event :=
  event .info .program s!"Vault credential sync cycle finished: {outcome.describe}"

/-- A program that has started up. -/
structure Started where
  config : Config
  schedule : Schedule
  logging : Logging
  /-- What was printed meanwhile. -/
  output : String

/-- The settings. -/
def load (environment : Environment) : Except (Failure Cause) Config :=
  within .loading ((Config.ofEnvironment environment).mapError (Failure.map .config))

/-- The schedule of the settings. -/
def check (config : Config) : Except (Failure Cause) Schedule :=
  within .invalid (config.validate.mapError (Failure.map .config))

/-- Starts the program up, or completes it. -/
def start (machine : Machine) : Except Completion Started :=
  match load machine.environment with
  | .error failure => .error (failed "" failure)
  | .ok config =>
    let logging := Logging.of machine.environment config
    let output := logging.lines machine.now [startEvent machine.build]
    match check config with
    | .error failure => .error (failed output failure)
    | .ok schedule => .ok ⟨config, schedule, logging, output⟩

/-- Runs a single cycle. -/
def once (machine : Machine) : Completion :=
  match start machine with
  | .error completion => completion
  | .ok started =>
    let turn := Cycle.run (Surroundings.services started.config.vault) ⟨0, machine.now.seconds⟩
      (Job.ofConfig started.config) Metrics.zero machine.surroundings
    let tell (events : List Event) : String :=
      started.output ++ started.logging.lines machine.now events
    match turn.outcome with
    | .sourceUnavailable | .authenticationFailed => failed (tell turn.log) (.of .unfinishedCycle)
    | outcome => done (tell (turn.log ++ [finishEvent outcome]))

/-- Prints the next times of a schedule. -/
def checkSchedule (now : Instant) (expression : String) (count : Nat) : Completion :=
  match Schedule.parse expression with
  | .error failure => failed "" (failure.map .schedule)
  | .ok schedule =>
    match schedule.upcoming count now with
    | [] => failed "" (.of (.exhausted expression))
    | times => done (String.join (times.map fun t => t.render ++ "\n"))

/-- The program refuses a command line. -/
def misused (misuse : Command.Misuse) : Completion :=
  ⟨2, "", "error: " ++ misuse.message ++ "\n\nFor more information, try '--help'.\n"⟩

/-- What comes of a command that ends by itself. Running on the schedule does not, unless the
program cannot start up. -/
def perform? (machine : Machine) : Command → Option Completion
  | .run =>
    match start machine with
    | .error completion => some completion
    | .ok _ => none
  | .once => some (once machine)
  | .checkSchedule expression count => some (checkSchedule machine.now expression count)
  | .help topic => some (done topic.text)

end Program

end CredentialRelay
