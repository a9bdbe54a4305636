import CredentialRelay.Number.Word
import CredentialRelay.Text.Natural

/-!
# The command line

The first argument names what to do. Without one, the program runs on its schedule.

* `check-schedule` takes an expression and, before or behind it, how many times to print.
* Behind `--` every argument counts as written, also one that begins with a dash.
* Arguments are read from the left: a request for help ends the reading, and what is wrong in front
  of it is refused.
-/

namespace CredentialRelay

/-- What help can be about. -/
inductive Topic where
  | program
  | run
  | once
  | checkSchedule
  | help
  deriving Repr, DecidableEq

/-- What the program is asked to do. -/
inductive Command where
  /-- Work on the schedule. -/
  | run
  /-- Work once. -/
  | once
  /-- Print the next times of a schedule. -/
  | checkSchedule (expression : String) (count : Nat)
  | help (topic : Topic)
  deriving Repr, DecidableEq

namespace Command

/-- Why a command line is refused. -/
inductive Misuse where
  | unknownCommand (name : String)
  | unexpectedArgument (argument : String)
  | missingExpression
  | missingCount
  | badCount (text : String) (fault : Text.NaturalError)
  | repeatedCount
  deriving Repr, DecidableEq

/-- The wording of each misuse. -/
def Misuse.message : Misuse → String
  | .unknownCommand name => s!"unrecognized subcommand '{name}'"
  | .unexpectedArgument argument => s!"unexpected argument '{argument}' found"
  | .missingExpression => "the following required arguments were not provided:\n  <EXPR>"
  | .missingCount => "a value is required for '--count <COUNT>' but none was supplied"
  | .badCount text fault =>
    "invalid value '" ++ text ++ "' for '--count <COUNT>': " ++ fault.message
  | .repeatedCount => "the argument '--count <COUNT>' cannot be used multiple times"

/-- An argument, by its form. -/
inductive Form where
  /-- The mark behind which every argument counts as written. -/
  | mark
  | help
  /-- The option for the count, with the value that is written behind it if there is one. -/
  | count (value : Option (List Char))
  /-- Another option. -/
  | option
  | plain
  deriving Repr, DecidableEq

/-- A value that may have an equals sign in front. -/
def unsigned : List Char → List Char
  | '=' :: value => value
  | value => value

/-- The form of an argument. -/
def form (argument : String) : Form :=
  match argument.toList with
  | ['-'] => .plain
  | ['-', '-'] => .mark
  | '-' :: '-' :: name =>
    if name = "help".toList then .help
    else if name = "count".toList then .count none
    else if "count=".toList.isPrefixOf name then .count (some (name.drop 6))
    else .option
  | '-' :: 'h' :: _ => .help
  | ['-', 'c'] => .count none
  | '-' :: 'c' :: value => .count (some (unsigned value))
  | '-' :: _ => .option
  | _ => .plain

/-- Refuses all arguments. -/
def nothingMore (command : Command) : List String → Except Misuse Command
  | [] => .ok command
  | argument :: _ => .error (.unexpectedArgument argument)

/-- Reads the arguments of a command that has none of its own. -/
def withoutArguments (command : Command) (topic : Topic) :
    List String → Except Misuse Command
  | [] => .ok command
  | argument :: rest =>
    match form argument with
    | .mark => nothingMore command rest
    | .help => .ok (.help topic)
    | _ => .error (.unexpectedArgument argument)

/-- What has been read about a schedule to check. -/
structure Check where
  expression : Option String
  count : Option Nat
  deriving Repr, DecidableEq

namespace Check

/-- How many times are printed unless it is said. -/
def defaultCount : Nat := 5

/-- The bound of the count. -/
def countBound : Nat := Word.size64

/-- Takes an argument as the expression. -/
def setExpression (check : Check) (text : String) : Except Misuse Check :=
  if check.expression.isSome then .error (.unexpectedArgument text)
  else .ok { check with expression := some text }

/-- Takes a text as the count. -/
def setCount (check : Check) (text : List Char) : Except Misuse Check :=
  match Text.readNatural countBound text with
  | .error fault => .error (.badCount (String.ofList text) fault)
  | .ok n =>
    if check.count.isSome then .error .repeatedCount else .ok { check with count := some n }

/-- The command, if nothing is missing. -/
def toCommand (check : Check) : Except Misuse Command :=
  match check.expression with
  | some expression => .ok (.checkSchedule expression (check.count.getD defaultCount))
  | none => .error .missingExpression

/-- Reads the arguments behind the mark. -/
def readPlain : Check → List String → Except Misuse Check
  | check, [] => .ok check
  | check, argument :: rest =>
    match check.setExpression argument with
    | .ok check => readPlain check rest
    | .error misuse => .error misuse

/-- Reads the arguments of a check. -/
def read : Check → List String → Except Misuse Command
  | check, [] => check.toCommand
  | check, argument :: rest =>
    match form argument with
    | .mark => (readPlain check rest).bind toCommand
    | .help => .ok (.help .checkSchedule)
    | .option => .error (.unexpectedArgument argument)
    | .plain =>
      match check.setExpression argument with
      | .ok check => read check rest
      | .error misuse => .error misuse
    | .count (some value) =>
      match check.setCount value with
      | .ok check => read check rest
      | .error misuse => .error misuse
    | .count none =>
      match rest with
      | [] => .error .missingCount
      | value :: rest =>
        if form value = .plain then
          match check.setCount value.toList with
          | .ok check => read check rest
          | .error misuse => .error misuse
        else .error .missingCount

end Check

/-- The topics by the names of the commands. -/
def topics : List (String × Topic) := [
  ("run", .run), ("once", .once), ("check-schedule", .checkSchedule), ("help", .help)]

/-- Reads what help is asked about. -/
def readHelp : List String → Except Misuse Command
  | [] => .ok (.help .program)
  | [name] =>
    match topics.lookup name with
    | some topic => .ok (.help topic)
    | none => .error (.unknownCommand name)
  | name :: next :: _ =>
    .error (.unknownCommand (if (topics.lookup name).isSome then next else name))

/-- Reads a command line. -/
def parse : List String → Except Misuse Command
  | [] => .ok .run
  | argument :: rest =>
    match topics.lookup argument with
    | some .run => withoutArguments .run .run rest
    | some .once => withoutArguments .once .once rest
    | some .checkSchedule => Check.read ⟨none, none⟩ rest
    | some .help => readHelp rest
    | some .program | none =>
      if form argument = .plain then .error (.unknownCommand argument)
      else withoutArguments .run .program (argument :: rest)

end Command

end CredentialRelay
