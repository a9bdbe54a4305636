import CredentialRelay.Log
import CredentialRelay.Number.Word
import CredentialRelay.Text.Blank
import CredentialRelay.Text.Natural
import CredentialRelay.Text.Split

/-!
# Which events are told

A filter is a list of directives, written with commas between them. A directive sets the threshold
for all targets that begin with a text, or for all targets.

* The directive with the longest text decides, and the last one among equals. Where none applies,
  nothing is told.
* A target without a threshold lets everything through.
* A filter without directives tells errors; one that cannot be read counts as the default.

Out of scope: directives about spans and fields, which are refused.
-/

namespace CredentialRelay.Log

/-- From which level on events are told. -/
inductive Threshold where
  | off
  | error
  | warn
  | info
  | debug
  | trace
  deriving Repr, DecidableEq

namespace Threshold

/-- The rank of the least level that is told. -/
def leastRank : Threshold → Nat
  | .off => 5
  | .error => 4
  | .warn => 3
  | .info => 2
  | .debug => 1
  | .trace => 0

/-- Whether events of a level are told. -/
def admits (threshold : Threshold) (level : Level) : Bool :=
  decide (threshold.leastRank ≤ level.rank)

/-- The names of the thresholds, in the order of their numbers. -/
def names : List (String × Threshold) := [
  ("off", .off), ("error", .error), ("warn", .warn), ("info", .info), ("debug", .debug),
  ("trace", .trace)]

/-- A threshold by its name, in any case, or by its number. -/
def parse (text : String) : Option Threshold :=
  match Text.readNatural Word.size64 text.toList with
  | .ok number => (names[number]?).map Prod.snd
  | .error _ => names.lookup (text.map Char.toLower)

end Threshold

/-- The threshold for the targets that begin with `target`. -/
structure Directive where
  target : String
  threshold : Threshold
  deriving Repr, DecidableEq

namespace Directive

/-- Whether a directive is about a target. -/
def covers (d : Directive) (target : String) : Bool :=
  d.target.toList.isPrefixOf target.toList

/-- Whether a directive may begin with a character. -/
def isStart (c : Char) : Bool :=
  c.isAlphanum || c = '-' || c = ':' || c = '_'

/-- Reads a directive. Blanks at its ends are part of a target that stands alone; next to a
threshold they are refused. What is about a span, in brackets, is refused as well. -/
def parse (text : String) : Option Directive :=
  let (target, threshold) := Text.splitFirst '=' text.toList
  if target.contains '[' ∨ !(target.dropWhile Text.isBlank).head?.any isStart then none
  else
    match threshold with
    | none => some ((Threshold.parse text).elim ⟨text, .trace⟩ fun t => ⟨"", t⟩)
    | some threshold =>
      if target.head?.any Text.isBlank then none
      else if threshold.isEmpty then some ⟨String.ofList target, .trace⟩
      else (Threshold.parse (String.ofList threshold)).map (⟨String.ofList target, ·⟩)

end Directive

/-- Which events are told. -/
structure Filter where
  directives : List Directive
  deriving Repr, DecidableEq

namespace Filter

/-- The filter of those who did not ask for one. -/
def default : Filter :=
  ⟨[⟨Component.program.target, .info⟩]⟩

/-- Reads a filter. -/
def parse? (text : String) : Option Filter :=
  let written := (Text.splitAll ',' text.toList).filter fun d => !d.isEmpty
  (written.mapM fun d => Directive.parse (String.ofList d)).map fun directives =>
    if directives.isEmpty then ⟨[⟨"", .error⟩]⟩ else ⟨directives⟩

/-- The filter that a setting asks for. -/
def ofSetting (setting : Option String) : Filter :=
  (setting.bind parse?).getD default

/-- The threshold for a target. -/
def threshold (filter : Filter) (target : String) : Threshold :=
  let better (best : Option Directive) (d : Directive) : Option Directive :=
    if d.covers target ∧ best.all fun b => decide (b.target.length ≤ d.target.length) then some d
    else best
  ((filter.directives.foldl better none).map Directive.threshold).getD .off

/-- Whether events of a component and a level are told. -/
def admits (filter : Filter) (component : Component) (level : Level) : Bool :=
  (filter.threshold component.target).admits level

/-- The level of all spans. -/
def spanLevel : Level := .info

/-- The events that are told, with the spans that are told. -/
def select (filter : Filter) (events : List Event) : List Event :=
  (events.filter fun e => filter.admits e.component e.level).map fun e =>
    { e with spans := e.spans.filter fun s => filter.admits s.component spanLevel }

end Filter

end CredentialRelay.Log
