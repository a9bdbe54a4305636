/-!
# Log events

What happens is told in events. An event has a level, the component that tells it, a message, and
possibly further fields; it may lie within spans, which say what was going on.
-/

namespace CredentialRelay.Log

/-- How important an event is. -/
inductive Level where
  | debug
  | info
  | warn
  | error
  deriving Repr, DecidableEq

/-- The name of a level. -/
def Level.name : Level → String
  | .debug => "DEBUG"
  | .info => "INFO"
  | .warn => "WARN"
  | .error => "ERROR"

/-- The order of the levels, the most important ones last. -/
def Level.rank : Level → Nat
  | .debug => 1
  | .info => 2
  | .warn => 3
  | .error => 4

/-- Who tells an event. -/
inductive Component where
  | program
  | job
  | source
  | vault
  | scheduler
  deriving Repr, DecidableEq

/-- The name under which a component logs. -/
def Component.target : Component → String
  | .program => "vault_cred_sync"
  | .job => "vault_cred_sync::job"
  | .source => "vault_cred_sync::source"
  | .vault => "vault_cred_sync::vault"
  | .scheduler => "vault_cred_sync::scheduler"

/-- Something that goes on for a while. -/
structure Span where
  name : String
  component : Component
  fields : List (String × String)
  deriving Repr, DecidableEq

/-- Something that happened. -/
structure Event where
  level : Level
  component : Component
  message : String
  fields : List (String × String)
  /-- The spans around the event, the outermost first. -/
  spans : List Span
  deriving Repr, DecidableEq

/-- An event without further fields, outside all spans. -/
def event (level : Level) (component : Component) (message : String) : Event :=
  ⟨level, component, message, [], []⟩

/-- The event within one more span. -/
def Event.inSpan (span : Span) (e : Event) : Event :=
  { e with spans := span :: e.spans }

end CredentialRelay.Log
