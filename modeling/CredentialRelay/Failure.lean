/-!
# Failures

A failure is a chain of causes: what could not be done, and below it the reasons, down to the
root. Each layer of the library has its own type of causes; `Failure.map` carries a failure into
a layer above.
-/

namespace CredentialRelay

/-- A chain of causes, from the outermost to the root. -/
structure Failure (κ : Type) where
  /-- The outermost cause. -/
  cause : κ
  /-- The causes below it, the root last. -/
  below : List κ
  deriving Repr, DecidableEq

namespace Failure

variable {κ μ : Type}

/-- A failure with a single cause. -/
def of (cause : κ) : Failure κ :=
  ⟨cause, []⟩

/-- All causes, from the outermost to the root. -/
def causes (f : Failure κ) : List κ :=
  f.cause :: f.below

/-- The failure seen from one step further out. -/
def within (context : κ) (f : Failure κ) : Failure κ :=
  ⟨context, f.causes⟩

/-- The failure with each cause taken into another type. -/
def map (g : κ → μ) (f : Failure κ) : Failure μ :=
  ⟨g f.cause, f.below.map g⟩

/-- The root. -/
def root (f : Failure κ) : κ :=
  f.causes.getLast (by simp [causes])

/-- The causes in one line, given the wording of each. -/
def line (message : κ → String) (f : Failure κ) : String :=
  ": ".intercalate (f.causes.map message)

@[simp] theorem causes_of (cause : κ) : (of cause).causes = [cause] := rfl

@[simp] theorem causes_within (context : κ) (f : Failure κ) :
    (within context f).causes = context :: f.causes := rfl

@[simp] theorem causes_map (g : κ → μ) (f : Failure κ) : (f.map g).causes = f.causes.map g := rfl

end Failure

/-- A failure with one cause, as a result. -/
def fail {κ α : Type} (cause : κ) : Except (Failure κ) α :=
  .error (.of cause)

/-- A result whose failure is seen from one step further out. -/
def within {κ α : Type} (context : κ) (result : Except (Failure κ) α) : Except (Failure κ) α :=
  result.mapError (Failure.within context)

end CredentialRelay
