import CredentialRelay.Failure
import CredentialRelay.Log

/-!
# Attempts

An attempt acts on a world outside. It may fail; either way it tells what happened and leaves the
world in some state.

* `Attempt.andThen` goes on only after a success, and keeps what both parts told.
* `Attempt.within` and `Attempt.mapCause` act on the failure alone.
-/

namespace CredentialRelay

/-- What came of acting on a world. -/
structure Attempt (κ σ α : Type) where
  result : Except (Failure κ) α
  log : List Log.Event
  world : σ

namespace Attempt

variable {κ μ σ α β : Type}

/-- An attempt that neither acts nor tells anything. -/
def ofResult (result : Except (Failure κ) α) (world : σ) : Attempt κ σ α :=
  ⟨result, [], world⟩

/-- An attempt that succeeded. -/
def success (value : α) (world : σ) : Attempt κ σ α :=
  ofResult (.ok value) world

/-- An attempt that failed for one cause. -/
def failure (cause : κ) (world : σ) : Attempt κ σ α :=
  ofResult (fail cause) world

/-- Goes on with the value of an attempt. -/
def andThen (a : Attempt κ σ α) (next : α → σ → Attempt κ σ β) : Attempt κ σ β :=
  match a.result with
  | .error failure => ⟨.error failure, a.log, a.world⟩
  | .ok value =>
    let b := next value a.world
    ⟨b.result, a.log ++ b.log, b.world⟩

/-- Tells one more event after a success. -/
def telling (a : Attempt κ σ α) (event : α → Log.Event) : Attempt κ σ α :=
  match a.result with
  | .error _ => a
  | .ok value => { a with log := a.log ++ [event value] }

/-- Changes the value. -/
def map (f : α → β) (a : Attempt κ σ α) : Attempt κ σ β :=
  ⟨a.result.map f, a.log, a.world⟩

/-- Takes the causes of a failure into another type. -/
def mapCause (f : κ → μ) (a : Attempt κ σ α) : Attempt μ σ α :=
  ⟨a.result.mapError (Failure.map f), a.log, a.world⟩

/-- Sees a failure from one step further out. -/
def within (context : κ) (a : Attempt κ σ α) : Attempt κ σ α :=
  ⟨CredentialRelay.within context a.result, a.log, a.world⟩

/-- Puts the world into a larger one. -/
def lift {τ : Type} (put : σ → τ) (a : Attempt κ σ α) : Attempt κ τ α :=
  ⟨a.result, a.log, put a.world⟩

/-- Puts all events into a span. -/
def inSpan (span : Log.Span) (a : Attempt κ σ α) : Attempt κ σ α :=
  { a with log := a.log.map (Log.Event.inSpan span) }

@[simp] theorem world_within (context : κ) (a : Attempt κ σ α) :
    (a.within context).world = a.world := rfl

@[simp] theorem log_within (context : κ) (a : Attempt κ σ α) :
    (a.within context).log = a.log := rfl

@[simp] theorem world_mapCause (f : κ → μ) (a : Attempt κ σ α) :
    (a.mapCause f).world = a.world := rfl

end Attempt

end CredentialRelay
