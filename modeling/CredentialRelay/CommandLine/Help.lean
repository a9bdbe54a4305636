import CredentialRelay.CommandLine.Arguments

/-!
# Help texts

What is printed when help is asked for. A text is made of sections with a blank line between
them, and the second column of a section is aligned.
-/

namespace CredentialRelay

namespace Topic

/-- Two columns, the second one aligned. -/
def columns (rows : List (String × String)) : List String :=
  let width := (rows.map fun row => row.1.length).foldl max 0
  rows.map fun row =>
    "  " ++ row.1 ++ String.ofList (List.replicate (width + 2 - row.1.length) ' ') ++ row.2

/-- A section with a heading. -/
def titled (heading : String) (rows : List (String × String)) : List String :=
  heading :: columns rows

/-- What a command does, in one line. -/
def about : Topic → String
  | .program => "Sync credentials from a Kubernetes secret into Vault"
  | .run => "Run sync cycles on the configured schedule until terminated (default)"
  | .once => "Run a single sync cycle and exit"
  | .checkSchedule => "Print the next fire times of a schedule expression"
  | .help => "Print this message or the help of the given subcommand(s)"

/-- How a command is called. -/
def usage : Topic → String
  | .program => "vault-cred-sync [COMMAND]"
  | .run => "vault-cred-sync run"
  | .once => "vault-cred-sync once"
  | .checkSchedule => "vault-cred-sync check-schedule [OPTIONS] <EXPR>"
  | .help => "vault-cred-sync help [COMMAND]..."

/-- The option that every command but `help` has. -/
def helpOption : String × String :=
  ("-h, --help", "Print help")

/-- The sections below the usage. -/
def sections : Topic → List (List String)
  | .program => [
      titled "Commands:" (Command.topics.map fun topic => (topic.1, topic.2.about)),
      titled "Options:" [helpOption],
      ["Configuration is read from the environment (VAULT_ADDR, VAULT_AUTH_METHOD,",
        "VAULT_CRED_SYNC_SECRET_NAME, VAULT_CRED_SYNC_FREQUENCY, ...)."],
      ["Examples:", "  vault-cred-sync", "  vault-cred-sync once",
        "  vault-cred-sync check-schedule '@every 2m'"]]
  | .run | .once => [titled "Options:" [helpOption]]
  | .checkSchedule => [
      titled "Arguments:" [("<EXPR>",
        "`@every <duration>`, a shortcut such as `@hourly`, or a cron expression")],
      titled "Options:" [
        ("-c, --count <COUNT>",
          s!"Number of fire times to print [default: {Command.Check.defaultCount}]"),
        helpOption]]
  | .help => [
      titled "Arguments:" [("[COMMAND]...", "Print help for the subcommand(s)")]]

/-- The help text. -/
def text (topic : Topic) : String :=
  let paragraphs := [topic.about] :: ["Usage: " ++ topic.usage] :: topic.sections
  "\n\n".intercalate (paragraphs.map ("\n".intercalate ·)) ++ "\n"

end Topic

end CredentialRelay
