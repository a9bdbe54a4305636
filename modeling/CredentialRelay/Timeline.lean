import CredentialRelay.Cycle.Basic
import CredentialRelay.Schedule.Descriptor

/-!
# Cycles on a schedule

A scheduled run waits for the next instant of its schedule, runs a cycle, and starts over. Time is
counted in milliseconds since the run began, and what passes of it is given: what the wall clock
shows, how long the secret takes to be read, and when the run is asked to stop.

* The next instant is looked up and told after a cycle has ended, so cycles never overlap.
* A cycle that has started is brought to its end, also if the run is asked to stop meanwhile.
* A schedule without a next instant is looked at again every minute.
* It is not determined what a run does that is asked to stop at the very moment at which it would
  go on. An eager one goes on, and stops when it waits again.

Models `run` of the scheduler (`Timeline.run`, with `resume` for its loop).

Out of scope: the time that anything takes but to read the secret.
-/

namespace CredentialRelay

open Log

/-- How many whole milliseconds one has to wait from `now` to reach `next`. -/
def Instant.millisUntil (now next : Instant) : Nat :=
  let seconds := next.seconds - now.seconds
  let nanos := seconds * Instant.nanosPerSecond + ((next.nanos : Int) - now.nanos)
  ((nanos + 999999) / 1000000).toNat

/-- The time that passes while cycles are run. -/
structure Timeline where
  /-- The wall clock, by the milliseconds since the beginning. -/
  clock : Nat → Instant
  /-- How long it takes to read the secret. -/
  readMillis : Nat
  /-- When the run is asked to stop. -/
  stop : Nat

namespace Timeline

/-- A stretch of time, both ends included. -/
structure Stretch where
  start : Nat
  finish : Nat
  deriving Repr, DecidableEq

/-- Whether a stretch contains a time. -/
def Stretch.contains (s : Stretch) (time : Nat) : Bool :=
  decide (s.start ≤ time) && decide (time ≤ s.finish)

/-- How many of some stretches there are at once, at most. -/
def mostAtOnce (stretches : List Stretch) : Nat :=
  (stretches.map fun s => stretches.countP (·.contains s.start)).foldl max 0

/-- A scheduled run that has ended. -/
structure Run (σ : Type) where
  /-- When the run ended. -/
  finish : Nat
  /-- The times of the cycles, in order. -/
  cycles : List Stretch
  job : Job
  metrics : Metrics
  log : List Event
  world : σ

/-- How long an exhausted schedule is left alone, in seconds. -/
def recheckSeconds : Nat := 60

/-- The event about the beginning of a run. -/
def startEvent (job : Job) : Event :=
  { event .info .scheduler "Starting vault credential sync scheduler" with
    fields := [("frequency", job.frequency)] }

/-- The event about the next instant of a schedule. -/
def waitEvent (next : Instant) : Event :=
  event .debug .scheduler s!"Next vault credential sync at {next.render}"

/-- The event about a schedule without a next instant. -/
def exhaustedEvent (job : Job) : Event :=
  event .warn .scheduler
    s!"Schedule '{job.frequency}' has no upcoming fire time, re-checking in {recheckSeconds}s"

/-- The event about the end of a run. -/
def stopEvent : Event :=
  event .info .scheduler "Vault credential sync scheduler stopped"

/-- How long one sleeps before the next instant of a schedule. No sleep is shorter than a
millisecond. -/
def sleep (now next : Instant) : Nat :=
  max 1 (now.millisUntil next)

theorem sleep_pos (now next : Instant) : 0 < sleep now next :=
  Nat.lt_of_lt_of_le Nat.zero_lt_one (Nat.le_max_left ..)

/-- Whether a run that waits until some time goes on then. -/
def goesOn (timeline : Timeline) (eager : Bool) (time : Nat) : Bool :=
  decide (time < timeline.stop) || (eager && time == timeline.stop)

theorem le_stop_of_goesOn {timeline : Timeline} {eager : Bool} {time : Nat}
    (h : timeline.goesOn eager time = true) : time ≤ timeline.stop := by
  simp only [goesOn, Bool.or_eq_true, Bool.and_eq_true, decide_eq_true_eq, beq_iff_eq] at h
  omega

/-- Time that is left becomes less by waiting. -/
theorem sub_add_lt_sub {now wait later stop : Nat} (positive : 0 < wait) (h : now + wait ≤ stop)
    (le_later : now + wait ≤ later) : stop - later < stop - now := by
  omega

variable {σ ν : Type}

/-- What the clocks say about a cycle that starts at some time. -/
def timing (timeline : Timeline) (start : Nat) : Cycle.Timing :=
  ⟨timeline.readMillis, (timeline.clock (start + timeline.readMillis)).seconds⟩

namespace Run

/-- A run that ends without another cycle. -/
def idle (finish : Nat) (job : Job) (metrics : Metrics) (world : σ) : Run σ :=
  ⟨finish, [], job, metrics, [], world⟩

/-- One more event in front of a run. -/
def telling (event : Event) (rest : Run σ) : Run σ :=
  { rest with log := event :: rest.log }

/-- One more cycle in front of a run. -/
def afterCycle (stretch : Stretch) (turn : Cycle.Turn σ) (rest : Run σ) : Run σ :=
  { rest with cycles := stretch :: rest.cycles, log := turn.log ++ rest.log }

end Run

/-- Goes on at some time, until the run is asked to stop. -/
def resume (timeline : Timeline) (services : Services σ ν) (schedule : Schedule) (now : Nat)
    (job : Job) (metrics : Metrics) (world : σ) (eager : Bool := false) : Run σ :=
  match schedule.next? (timeline.clock now) with
  | none =>
    Run.telling (exhaustedEvent job) <|
      if timeline.goesOn eager (now + recheckSeconds * 1000) then
        timeline.resume services schedule (now + recheckSeconds * 1000) job metrics world eager
      else .idle (max now timeline.stop) job metrics world
  | some next =>
    let start := now + sleep (timeline.clock now) next
    Run.telling (waitEvent next) <|
      if timeline.goesOn eager start then
        let finish := start + timeline.readMillis
        let turn := Cycle.run services (timeline.timing start) job metrics world
        (timeline.resume services schedule finish turn.job turn.metrics turn.world eager).afterCycle
          ⟨start, finish⟩ turn
      else .idle (max now timeline.stop) job metrics world
  termination_by timeline.stop - now
  decreasing_by
    · exact sub_add_lt_sub (by decide) (le_stop_of_goesOn ‹_›) (Nat.le_refl _)
    · exact sub_add_lt_sub (sleep_pos ..) (le_stop_of_goesOn ‹_›) (Nat.le_add_right ..)

/-- Runs cycles until the run is asked to stop. -/
def run (timeline : Timeline) (services : Services σ ν) (schedule : Schedule) (job : Job)
    (metrics : Metrics) (world : σ) (eager : Bool := false) : Run σ :=
  let rest := timeline.resume services schedule 0 job metrics world eager
  Run.telling (startEvent job) { rest with log := rest.log ++ [stopEvent] }

end Timeline

end CredentialRelay
