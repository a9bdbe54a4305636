import CredentialRelay.Json.Escape
import CredentialRelay.Log

/-!
# Log lines

An event is written on a line, either as a JSON object or as text for people. The innermost span
has a member of its own in the object, beside the list of all of them.
-/

namespace CredentialRelay.Log

/-- The form of log lines. -/
inductive Format where
  | text
  | json
  deriving Repr, DecidableEq

/-- The form with a name; every name but one stands for text. -/
def Format.ofName (name : String) : Format :=
  if name.map Char.toLower = "json" then .json else .text

/-- Named texts as members of an object. -/
def writtenTexts (fields : List (String × String)) : List (String × String) :=
  fields.map fun f => (f.1, Json.writeText f.2)

/-- A span as a JSON object. -/
def Span.toJson (s : Span) : String :=
  Json.writeObject (writtenTexts (s.fields ++ [("name", s.name)]))

/-- An event as a JSON object, with the time at which it happened. -/
def Event.toJson (time : String) (e : Event) : String :=
  let spans := match e.spans.getLast? with
    | some innermost =>
      [("span", innermost.toJson), ("spans", Json.writeArray (e.spans.map Span.toJson))]
    | none => []
  Json.writeObject ([
    ("timestamp", Json.writeText time),
    ("level", Json.writeText e.level.name),
    ("fields", Json.writeObject (writtenTexts (("message", e.message) :: e.fields))),
    ("target", Json.writeText e.component.target)] ++ spans)

/-- Named texts for people. -/
def showFields (fields : List (String × String)) : String :=
  " ".intercalate (fields.map fun f => f.1 ++ "=" ++ f.2)

/-- A span for people. -/
def Span.show (s : Span) : String :=
  s.name ++ "\x7b" ++ showFields s.fields ++ "\x7d:"

/-- An event for people, with the time at which it happened. -/
def Event.show (time : String) (e : Event) : String :=
  let level := String.ofList (List.replicate (5 - e.level.name.length) ' ') ++ e.level.name
  let spans := if e.spans.isEmpty then "" else String.join (e.spans.map Span.show) ++ " "
  let fields := if e.fields.isEmpty then "" else " " ++ showFields e.fields
  time ++ " " ++ level ++ " " ++ spans ++ e.component.target ++ ": " ++ e.message ++ fields

/-- Events on lines of a form. -/
def Format.lines (format : Format) (time : String) (events : List Event) : String :=
  String.join (events.map fun e =>
    (match format with
      | .json => e.toJson time
      | .text => e.show time) ++ "\n")

end CredentialRelay.Log
