import CredentialRelay.Dictionary

/-!
# Metrics

What the library counts: cycles and how they ended, entries and what became of them, how long
cycles took, and when the last one was completed.

Counters go up by one at a time. A counter with labels has a value for every label that was
counted, and zero for all others.

Out of scope: the sums of durations, and counters beyond `2 ^ 64`.
-/

namespace CredentialRelay

/-- Counts by label. -/
abbrev Tally := Dictionary Nat

/-- The count of a label. -/
def Tally.count (t : Tally) (label : String) : Nat :=
  (t.get? label).getD 0

/-- One more of a label. -/
def Tally.bump (t : Tally) (label : String) : Tally :=
  t.insert label (Tally.count t label + 1)

/-- The sum of all counts. -/
def Tally.total (t : Tally) : Nat :=
  t.entries.foldl (fun total entry => total + entry.2) 0

/-- Everything that is counted. -/
structure Metrics where
  /-- Cycles begun. -/
  cycles : Nat
  /-- Cycles that were given up, by stage. -/
  cycleErrors : Tally
  /-- Cycles in which nothing had changed. -/
  unchanged : Nat
  /-- How many milliseconds each completed cycle took, the last one first. -/
  durations : List Int
  /-- Entries that were stored, by kind. -/
  written : Tally
  /-- Entries that failed, by reason and then by kind. -/
  failures : Dictionary Tally
  /-- Entries of no known kind. -/
  unsupported : Nat
  /-- When a cycle was last completed, in seconds since 1970. -/
  lastSync : Int
  deriving DecidableEq

namespace Metrics

/-- Nothing counted yet. -/
def zero : Metrics :=
  ⟨0, Dictionary.empty, 0, [], Dictionary.empty, Dictionary.empty, 0, 0⟩

instance : Inhabited Metrics := ⟨zero⟩

/-- A cycle begins. -/
def countCycle (m : Metrics) : Metrics :=
  { m with cycles := m.cycles + 1 }

/-- A cycle is given up. -/
def countCycleError (m : Metrics) (stage : String) : Metrics :=
  { m with cycleErrors := m.cycleErrors.bump stage }

/-- Nothing has changed since the last cycle. -/
def countUnchanged (m : Metrics) : Metrics :=
  { m with unchanged := m.unchanged + 1 }

/-- A completed cycle took some time. -/
def observeDuration (m : Metrics) (millis : Int) : Metrics :=
  { m with durations := millis :: m.durations }

/-- An entry was stored. -/
def countWritten (m : Metrics) (kind : String) : Metrics :=
  { m with written := m.written.bump kind }

/-- The number of entries of a kind that failed for a reason. -/
def failureCount (m : Metrics) (kind reason : String) : Nat :=
  Tally.count ((m.failures.get? reason).getD Dictionary.empty) kind

/-- An entry failed. -/
def countFailure (m : Metrics) (kind reason : String) : Metrics :=
  let ofReason : Tally := (m.failures.get? reason).getD Dictionary.empty
  { m with failures := m.failures.insert reason (ofReason.bump kind) }

/-- An entry is of no known kind. -/
def countUnsupported (m : Metrics) : Metrics :=
  { m with unsupported := m.unsupported + 1 }

/-- A cycle was completed. -/
def setLastSync (m : Metrics) (unixSeconds : Int) : Metrics :=
  { m with lastSync := unixSeconds }

end Metrics

end CredentialRelay
