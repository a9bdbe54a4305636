import CredentialRelay.Proofs.Cycle.History
import CredentialRelay.Timeline
import Mathlib.Data.Nat.Find

/-!
# Cycles at an interval

A run at a fixed interval waits for the interval, runs a cycle, and waits again. The interval is
added to the time at which the cycle before has ended, so the time of the `k`-th cycle has `k`
intervals in it, and the time that the `k - 1` cycles before took. The wall clock has no part in
that: it is asked what is one interval later, and the wait is the difference.

* `startOf`, `cycleOf`: when the cycle behind some others starts, and until when it is in progress.
* `told`: what is told of some turns and of the waits for them.
* `Run.ofTurns`: a run whose work and world are those that some turns leave.
* `KeepsTime`: what is promised about the cycles and the end of a run.

Nothing is said about a run that is asked to stop at the very moment at which a cycle would start.

Results:
* `Instant.millisUntil_addMillis?`: what is some time later is this time away.
* `resume_every`: a run at an interval, from any of its waits on.
* `run_keeps_time`: a run at an interval keeps time, and one at an interval that leads nowhere
  waits until it is asked to stop.
-/

namespace CredentialRelay

namespace Instant

variable {now next : Instant} {millis : Nat}

/-- The instant some milliseconds later than one that is in no leap second. -/
theorem addMillis?_of_plain (h : now.nanos < nanosPerSecond) (millis : Nat) :
    now.addMillis? millis =
      let nanos := now.nanos + millis % 1000 * 1000000
      let sum : Instant := ⟨now.seconds + (millis / 1000 : Nat) + (nanos / nanosPerSecond : Nat),
        nanos % nanosPerSecond⟩
      if sum.isInBounds then some sum else none := by
  have hleap : ¬ nanosPerSecond ≤ now.nanos := Nat.not_le.mpr h
  unfold addMillis?
  simp only [hleap, false_and, if_false]

/-- **The instant some milliseconds later is as many milliseconds away.** -/
theorem millisUntil_addMillis? (h : now.nanos < nanosPerSecond)
    (hnext : now.addMillis? millis = some next) : now.millisUntil next = millis := by
  rw [addMillis?_of_plain h] at hnext
  dsimp only at hnext
  split at hnext
  · cases hnext
    unfold millisUntil
    simp only [nanosPerSecond] at h ⊢
    omega
  · cases hnext

theorem isInBounds_iff {t : Instant} :
    t.isInBounds = true ↔ bounds.1 ≤ t.seconds ∧ t.seconds ≤ bounds.2 := by
  unfold isInBounds
  rw [Bool.and_eq_true, decide_eq_true_eq, decide_eq_true_eq]

/-- There is an instant some milliseconds later up to the last second but one. -/
theorem isSome_addMillis? (h : now.nanos < nanosPerSecond) (hlow : bounds.1 ≤ now.seconds)
    (hhigh : now.seconds + (millis / 1000 : Nat) < bounds.2) :
    (now.addMillis? millis).isSome = true := by
  have hcarry : (now.nanos + millis % 1000 * 1000000) / nanosPerSecond ≤ 1 := by
    unfold nanosPerSecond at h ⊢
    omega
  rw [addMillis?_of_plain h]
  dsimp only
  generalize (now.nanos + millis % 1000 * 1000000) / nanosPerSecond = carry at hcarry ⊢
  rw [if_pos (isInBounds_iff.mpr (by dsimp only; omega))]
  rfl

end Instant

theorem Schedule.next?_every (interval : Interval) (now : Instant) :
    (Schedule.every interval).next? now =
      if interval.millis ≤ Schedule.maxAhead then now.addMillis? interval.millis else none :=
  rfl

namespace Timeline

variable {σ ν : Type}

/-! ## Times of cycles -/

section

variable (timeline : Timeline) (interval : Interval)

/-- When the wait for the cycle behind `k` others begins. -/
def waitOf (k : Nat) : Nat :=
  k * (interval.millis + timeline.readMillis)

/-- When the cycle behind `k` others starts. -/
def startOf (k : Nat) : Nat :=
  (k + 1) * interval.millis + k * timeline.readMillis

/-- The time of the cycle behind `k` others. -/
def cycleOf (k : Nat) : Stretch :=
  ⟨timeline.startOf interval k, timeline.startOf interval k + timeline.readMillis⟩

theorem startOf_eq (k : Nat) :
    timeline.startOf interval k = timeline.waitOf interval k + interval.millis := by
  unfold startOf waitOf
  rw [Nat.succ_mul, Nat.mul_add]
  omega

/-- A wait begins when a cycle has ended. -/
theorem waitOf_succ (k : Nat) :
    timeline.waitOf interval (k + 1) = timeline.startOf interval k + timeline.readMillis := by
  rw [startOf_eq]
  unfold waitOf
  rw [Nat.succ_mul]
  omega

theorem waitOf_le {k l : Nat} (h : k ≤ l) :
    timeline.waitOf interval k ≤ timeline.waitOf interval l :=
  Nat.mul_le_mul_right _ h

/-- Between two cycles there is a wait. -/
theorem finish_lt_start {k l : Nat} (h : k < l) :
    (timeline.cycleOf interval k).finish < (timeline.cycleOf interval l).start := by
  have hpos := interval.positive
  have hle : timeline.waitOf interval (k + 1) ≤ timeline.waitOf interval l :=
    timeline.waitOf_le interval h
  show timeline.startOf interval k + timeline.readMillis < timeline.startOf interval l
  rw [← waitOf_succ, startOf_eq]
  omega

theorem startOf_lt {k l : Nat} (h : k < l) :
    timeline.startOf interval k < timeline.startOf interval l :=
  Nat.lt_of_le_of_lt (Nat.le_add_right _ _) (timeline.finish_lt_start interval h)

/-- Only so many cycles start before some time. -/
theorem exists_startOf_lt_iff (time : Nat) :
    ∃ count, ∀ k, timeline.startOf interval k < time ↔ k < count := by
  have hlate : ∃ k, time ≤ timeline.startOf interval k := by
    refine ⟨time, ?_⟩
    have hmul := Nat.le_mul_of_pos_right (time + 1) interval.positive
    unfold startOf
    omega
  classical
  refine ⟨Nat.find hlate, fun k => ⟨fun h => ?_, fun h => ?_⟩⟩
  · refine Nat.lt_of_not_le fun hle => ?_
    have hfind := Nat.find_spec hlate
    rcases Nat.eq_or_lt_of_le hle with heq | hlt
    · exact absurd (Nat.lt_of_lt_of_le h (heq ▸ hfind)) (Nat.lt_irrefl _)
    · have hlater := timeline.startOf_lt interval hlt
      omega
  · exact Nat.lt_of_not_le (Nat.find_min hlate h)

end

/-! ## Runs of turns -/

/-- The rounds of some cycles; nothing but the cycles changes the world. -/
def rounds (timeline : Timeline) (cycles : List Stretch) : List (Cycle.Round σ) :=
  cycles.map fun cycle => ⟨id, timeline.timing cycle.start⟩

/-- What is told before the cycle behind `k` others: when it is due. -/
def due (timeline : Timeline) (interval : Interval) (k : Nat) : List Log.Event :=
  ((Schedule.every interval).next? (timeline.clock (timeline.waitOf interval k))).toList.map
    waitEvent

/-- What is told of the turns behind `k` others: before each of them when it is due, and so behind
the last. -/
def told (timeline : Timeline) (interval : Interval) (k : Nat) :
    List (Cycle.Turn σ) → List Log.Event
  | [] => timeline.due interval k
  | turn :: turns => timeline.due interval k ++ (turn.log ++ timeline.told interval (k + 1) turns)

/-- The run that some turns leave, of which `log` is told. -/
def Run.ofTurns (finish : Nat) (cycles : List Stretch) (log : List Log.Event) (job : Job)
    (metrics : Metrics) (world : σ) (turns : List (Cycle.Turn σ)) : Run σ where
  finish := finish
  cycles := cycles
  job := Cycle.jobAfter job turns
  metrics := turns.foldl (fun _ turn => turn.metrics) metrics
  log := log
  world := turns.foldl (fun _ turn => turn.world) world

/-- A run between the events about its beginning and its end. -/
def Run.framed (job : Job) (rest : Run σ) : Run σ :=
  .telling (startEvent job) { rest with log := rest.log ++ [stopEvent] }

section

variable {timeline : Timeline} {interval : Interval} (services : Services σ ν)

/-- Whether a clock is in no leap second, and has an instant one interval later, at every time at
which a run can look at it. -/
def HasRoom (timeline : Timeline) (interval : Interval) : Prop :=
  ∀ time ≤ timeline.stop + timeline.readMillis,
    (timeline.clock time).nanos < Instant.nanosPerSecond ∧
      ((Schedule.every interval).next? (timeline.clock time)).isSome = true

/-- A wait takes the interval. -/
theorem HasRoom.sleep_eq (h : timeline.HasRoom interval) {time : Nat}
    (htime : time ≤ timeline.stop + timeline.readMillis) :
    ∃ next, (Schedule.every interval).next? (timeline.clock time) = some next ∧
      sleep (timeline.clock time) next = interval.millis := by
  obtain ⟨hplain, hsome⟩ := h time htime
  obtain ⟨next, hnext⟩ := Option.isSome_iff_exists.mp hsome
  refine ⟨next, hnext, ?_⟩
  rw [Schedule.next?_every] at hnext
  split at hnext
  · have hmillis := Instant.millisUntil_addMillis? hplain hnext
    rw [sleep, hmillis]
    exact Nat.max_eq_right interval.positive
  · cases hnext

/-- **One step of a run**: it is told when the next cycle is due, and that is run, or none if the
run is asked to stop before. -/
theorem resume_wait (hroom : timeline.HasRoom interval) {k : Nat}
    (hk : timeline.waitOf interval k ≤ timeline.stop + timeline.readMillis)
    (hstop : timeline.stop ≠ timeline.startOf interval k) (job : Job) (metrics : Metrics) (world : σ)
    (eager : Bool) :
    ∃ next, timeline.due interval k = [waitEvent next] ∧
      timeline.resume services (.every interval) (timeline.waitOf interval k) job metrics world
        eager = .telling (waitEvent next)
          (if timeline.startOf interval k < timeline.stop then
            let turn :=
              Cycle.run services (timeline.timing (timeline.startOf interval k)) job metrics world
            (timeline.resume services (.every interval) (timeline.waitOf interval (k + 1)) turn.job
              turn.metrics turn.world eager).afterCycle (timeline.cycleOf interval k) turn
          else .idle (max (timeline.waitOf interval k) timeline.stop) job metrics world) := by
  obtain ⟨next, hnext, hsleep⟩ := hroom.sleep_eq hk
  have hgoes : timeline.goesOn eager (timeline.startOf interval k) =
      decide (timeline.startOf interval k < timeline.stop) := by
    rw [goesOn, beq_eq_false_iff_ne.mpr (Ne.symm hstop), Bool.and_false, Bool.or_false]
  refine ⟨next, by rw [due, hnext, Option.toList_some, List.map_singleton], ?_⟩
  rw [resume, hnext]
  simp only [hsleep, ← startOf_eq, waitOf_succ, hgoes, decide_eq_true_eq]
  rfl

/-- **A run at an interval**, from one of its waits on, if `m` more cycles start before it is asked
to stop. -/
theorem resume_every (hroom : timeline.HasRoom interval)
    (hstop : ∀ k, timeline.stop ≠ timeline.startOf interval k) (eager : Bool) :
    ∀ {m k : Nat}, (∀ i, timeline.startOf interval i < timeline.stop ↔ i < k + m) →
    timeline.waitOf interval k ≤ timeline.stop + timeline.readMillis →
    ∀ (job : Job) (metrics : Metrics) (world : σ),
    let cycles := (List.range' k m).map (timeline.cycleOf interval)
    let turns := Cycle.history services job metrics world (timeline.rounds cycles)
    timeline.resume services (.every interval) (timeline.waitOf interval k) job metrics world eager =
      .ofTurns (max (timeline.waitOf interval (k + m)) timeline.stop) cycles
        (timeline.told interval k turns) job metrics world turns := by
  intro m
  induction m with
  | zero =>
    intro k hcount hk job metrics world
    have hnot : ¬ timeline.startOf interval k < timeline.stop :=
      fun h => Nat.lt_irrefl k ((hcount k).mp h)
    obtain ⟨next, hdue, hresume⟩ :=
      resume_wait services hroom hk (hstop k) job metrics world eager
    rw [hresume, if_neg hnot]
    simp only [List.range'_zero, List.map_nil, rounds, Cycle.history, told, hdue]
    rfl
  | succ m ih =>
    intro k hcount hk job metrics world
    have hstart : timeline.startOf interval k < timeline.stop :=
      (hcount k).mpr (Nat.lt_add_of_pos_right (Nat.succ_pos m))
    have hnext : timeline.waitOf interval (k + 1) ≤ timeline.stop + timeline.readMillis := by
      rw [waitOf_succ]
      omega
    rw [show k + (m + 1) = k + 1 + m by omega] at hcount ⊢
    obtain ⟨next, hdue, hresume⟩ :=
      resume_wait services hroom hk (hstop k) job metrics world eager
    rw [hresume, if_pos hstart, List.range'_succ, List.map_cons]
    dsimp only
    rw [ih hcount hnext]
    simp only [rounds, List.map_cons, Cycle.history, told, hdue]
    rfl

/-- **A schedule without a next instant** is looked at again and again, and no cycle starts. -/
theorem resume_exhausted {schedule : Schedule}
    (hnone : ∀ time ≤ timeline.stop, schedule.next? (timeline.clock time) = none) (eager : Bool)
    (job : Job) (metrics : Metrics) (world : σ) (now : Nat) (hnow : now ≤ timeline.stop) :
    ∃ checks, timeline.resume services schedule now job metrics world eager =
      ⟨timeline.stop, [], job, metrics, List.replicate (checks + 1) (exhaustedEvent job), world⟩ := by
  rw [resume, hnone now hnow]
  dsimp only
  split
  · next hgoes =>
    obtain ⟨checks, hrest⟩ := resume_exhausted hnone eager job metrics world
      (now + recheckSeconds * 1000) (le_stop_of_goesOn hgoes)
    rw [hrest]
    exact ⟨checks + 1, rfl⟩
  · rw [Nat.max_eq_right hnow]
    exact ⟨0, rfl⟩
  termination_by timeline.stop - now
  decreasing_by exact sub_add_lt_sub (by decide) (le_stop_of_goesOn ‹_›) (Nat.le_refl _)

end

/-! ## Keeping time -/

/-- No two of some stretches of time that come one after another have a time in common. -/
theorem countP_contains_le_one {time : Nat} : ∀ {stretches : List Stretch},
    stretches.Pairwise (fun a b => a.finish < b.start) →
    stretches.countP (·.contains time) ≤ 1
  | [], _ => Nat.zero_le 1
  | first :: more, h => by
    obtain ⟨hbefore, hmore⟩ := List.pairwise_cons.mp h
    cases hfirst : first.contains time with
    | false =>
      rw [List.countP_cons, hfirst]
      exact countP_contains_le_one hmore
    | true =>
      have hnone : more.countP (·.contains time) = 0 := by
        rw [List.countP_eq_zero]
        intro other hother hcontains
        have hlt := hbefore other hother
        simp only [Stretch.contains, Bool.and_eq_true, decide_eq_true_eq] at hfirst hcontains
        omega
      rw [List.countP_cons, hfirst, hnone]
      exact Nat.le_refl 1

/-- What bounds the number of stretches at every time, bounds the greatest number of them at once. -/
theorem mostAtOnce_le {stretches : List Stretch} {most : Nat}
    (h : ∀ time, stretches.countP (·.contains time) ≤ most) : mostAtOnce stretches ≤ most := by
  have hmax : ∀ (counts : List Nat) {start : Nat}, start ≤ most → (∀ n ∈ counts, n ≤ most) →
      counts.foldl max start ≤ most := by
    intro counts
    induction counts with
    | nil => exact fun hstart _ => hstart
    | cons n counts ih =>
      intro start hstart hall
      obtain ⟨hn, hcounts⟩ := List.forall_mem_cons.mp hall
      exact ih (Nat.max_le.mpr ⟨hstart, hn⟩) hcounts
  refine hmax _ (Nat.zero_le most) fun n hn => ?_
  obtain ⟨stretch, -, rfl⟩ := List.mem_map.mp hn
  exact h stretch.start

/-- What is promised about the cycles and the end of a run at an interval. -/
structure KeepsTime (timeline : Timeline) (interval : Interval) (run : Run σ) : Prop where
  /-- Exactly the cycles that start before the run is asked to stop are run, each at its time. -/
  cycles : ∀ k, run.cycles[k]? =
    if timeline.startOf interval k < timeline.stop then some (timeline.cycleOf interval k) else none
  /-- There is one cycle at a time. -/
  one_at_a_time : ∀ time, run.cycles.countP (·.contains time) ≤ 1
  /-- Every cycle is brought to its end before the run ends. -/
  brought_to_end : ∀ cycle ∈ run.cycles, cycle.finish ≤ run.finish
  /-- A run that is waiting when it is asked to stop ends then. -/
  stops_waiting : (∀ cycle ∈ run.cycles, cycle.contains timeline.stop = false) →
    run.finish = timeline.stop
  /-- A run that is in a cycle when it is asked to stop ends with the cycle. -/
  stops_working : ∀ cycle ∈ run.cycles, cycle.contains timeline.stop = true →
    run.finish = cycle.finish

variable {timeline : Timeline} {interval : Interval}

theorem KeepsTime.mostAtOnce_le_one {run : Run σ} (h : timeline.KeepsTime interval run) :
    mostAtOnce run.cycles ≤ 1 :=
  mostAtOnce_le h.one_at_a_time

/-- A run of just the cycles that start before it is asked to stop keeps time, if it ends when it
waits next. -/
theorem keepsTime_of_cycles {run : Run σ} {count : Nat}
    (hstop : ∀ k, timeline.stop ≠ timeline.startOf interval k)
    (hcount : ∀ k, timeline.startOf interval k < timeline.stop ↔ k < count)
    (hcycles : run.cycles = (List.range count).map (timeline.cycleOf interval))
    (hfinish : run.finish = max (timeline.waitOf interval count) timeline.stop) :
    timeline.KeepsTime interval run := by
  have hlate : timeline.stop < timeline.startOf interval count := by
    have hnot := (not_congr (hcount count)).mpr (Nat.lt_irrefl count)
    exact Nat.lt_of_le_of_ne (Nat.le_of_not_lt hnot) (hstop count)
  have hmem {cycle : Stretch} (h : cycle ∈ run.cycles) :
      ∃ k < count, timeline.cycleOf interval k = cycle := by
    rw [hcycles] at h
    obtain ⟨k, hk, rfl⟩ := List.mem_map.mp h
    exact ⟨k, List.mem_range.mp hk, rfl⟩
  refine ⟨fun k => ?_, fun time => ?_, fun cycle h => ?_, fun h => ?_, fun cycle h hstops => ?_⟩
  · rw [hcycles, List.getElem?_map]
    by_cases hk : k < count
    · rw [if_pos ((hcount k).mpr hk), List.getElem?_range hk]
      rfl
    · rw [if_neg (mt (hcount k).mp hk), List.getElem?_eq_none (by simpa using hk)]
      rfl
  · refine countP_contains_le_one ?_
    rw [hcycles, List.pairwise_map]
    exact List.pairwise_lt_range.imp fun h => timeline.finish_lt_start interval h
  · obtain ⟨k, hk, rfl⟩ := hmem h
    rw [hfinish, cycleOf, ← waitOf_succ]
    exact Nat.le_trans (timeline.waitOf_le interval hk) (Nat.le_max_left _ _)
  · rw [hfinish]
    refine Nat.max_eq_right ?_
    cases count with
    | zero => simp [waitOf]
    | succ k =>
      have hlast : timeline.cycleOf interval k ∈ run.cycles := by
        rw [hcycles]
        exact List.mem_map_of_mem (List.mem_range.mpr (Nat.lt_succ_self k))
      have hstart := (hcount k).mpr (Nat.lt_succ_self k)
      have hpast := h _ hlast
      simp only [Stretch.contains, cycleOf, ← waitOf_succ, Bool.and_eq_false_iff,
        decide_eq_false_iff_not] at hpast
      omega
  · obtain ⟨k, hk, rfl⟩ := hmem h
    simp only [Stretch.contains, cycleOf, ← waitOf_succ, Bool.and_eq_true,
      decide_eq_true_eq] at hstops
    -- The cycle behind would start later, so there is none.
    have hlast : count = k + 1 := by
      refine Nat.le_antisymm (Nat.le_of_not_lt fun hlt => ?_) hk
      have hnext := (hcount (k + 1)).mpr hlt
      rw [startOf_eq] at hnext
      omega
    rw [hfinish, hlast, Nat.max_eq_left hstops.2, waitOf_succ]
    rfl

/-- **A run at an interval keeps time**, and it is a history with one turn for each of its cycles, so
each of them was brought to its end. A run at an interval that leads nowhere starts no cycle and
ends when it is asked to stop. -/
theorem run_keeps_time (hstop : ∀ k, timeline.stop ≠ timeline.startOf interval k)
    (services : Services σ ν) (job : Job) (metrics : Metrics) (world : σ) (eager : Bool) :
    let run := timeline.run services (.every interval) job metrics world eager
    let turns := Cycle.history services job metrics world (timeline.rounds run.cycles)
    (timeline.HasRoom interval → timeline.KeepsTime interval run ∧
      run = .framed job (.ofTurns run.finish run.cycles (timeline.told interval 0 turns) job metrics
        world turns)) ∧
    ((∀ time ≤ timeline.stop, (Schedule.every interval).next? (timeline.clock time) = none) →
      ∃ checks, run = .framed job ⟨timeline.stop, [], job, metrics,
        List.replicate checks (exhaustedEvent job), world⟩) := by
  have hfirst : timeline.waitOf interval 0 = 0 := Nat.zero_mul _
  intro run turns
  constructor
  · intro hroom
    obtain ⟨count, hcount⟩ := timeline.exists_startOf_lt_iff interval timeline.stop
    have hbegin : timeline.waitOf interval 0 ≤ timeline.stop + timeline.readMillis := by
      rw [hfirst]
      exact Nat.zero_le _
    have hrun := resume_every services hroom hstop eager (m := count) (k := 0) (by simpa using hcount)
      hbegin job metrics world
    rw [hfirst, Nat.zero_add, ← List.range_eq_range'] at hrun
    have hall : run = .framed job _ := congrArg (Run.framed job) hrun
    have hcycles : run.cycles = (List.range count).map (timeline.cycleOf interval) := by
      rw [hall]
      rfl
    have hfinish : run.finish = max (timeline.waitOf interval count) timeline.stop := by
      rw [hall]
      rfl
    refine ⟨keepsTime_of_cycles hstop hcount hcycles hfinish, ?_⟩
    show run = .framed job (.ofTurns run.finish run.cycles (timeline.told interval 0
      (Cycle.history services job metrics world (timeline.rounds run.cycles))) job metrics world
      (Cycle.history services job metrics world (timeline.rounds run.cycles)))
    rw [hcycles, hfinish]
    exact hall
  · intro hnone
    obtain ⟨checks, hrun⟩ :=
      resume_exhausted services hnone eager job metrics world 0 (Nat.zero_le _)
    exact ⟨checks + 1, congrArg (Run.framed job) hrun⟩

/-- Seven and a half seconds from 2024-05-01 10:00 on, with a secret that takes two and a half
seconds to be read. -/
def slowReads : Timeline where
  clock time := ⟨1714557600 + (time / 1000 : Nat), time % 1000 * 1000000⟩
  readMillis := 2500
  stop := 7500

/-- A cycle every second. -/
def everySecond : Interval :=
  ⟨1000, by decide⟩

/-- The shortest interval that leads nowhere. -/
def endless : Interval :=
  ⟨Word.size63, by decide⟩

theorem slowReads_hasRoom : slowReads.HasRoom everySecond := by
  intro time htime
  have hle : time ≤ 10000 := htime
  have hbounds : Instant.bounds = (-8334601228800, 8210266876799) := by decide
  have hplain : (slowReads.clock time).nanos < Instant.nanosPerSecond := by
    show time % 1000 * 1000000 < 1000000000
    omega
  refine ⟨hplain, ?_⟩
  rw [Schedule.next?_every, if_pos (show everySecond.millis ≤ Schedule.maxAhead by decide)]
  refine Instant.isSome_addMillis? hplain ?_ ?_
  · rw [hbounds]
    show (-8334601228800 : Int) ≤ 1714557600 + (time / 1000 : Nat)
    omega
  · rw [hbounds]
    show 1714557600 + ((time / 1000 : Nat) : Int) + ((1000 / 1000 : Nat) : Int) < 8210266876799
    omega

/-- The second cycle starts a second after the end of the first one. -/
theorem run_keeps_time_slowReads :
    let run (interval : Interval) := slowReads.run Memory.services (.every interval)
      (Job.ofConfig Config.default) Metrics.zero Memory.empty
    slowReads.HasRoom everySecond ∧ slowReads.KeepsTime everySecond (run everySecond) ∧
      (run everySecond).cycles[1]? = some ⟨4500, 7000⟩ ∧ (run endless).cycles = [] := by
  intro run
  have hsecond (k : Nat) : slowReads.stop ≠ slowReads.startOf everySecond k := by
    show 7500 ≠ (k + 1) * 1000 + k * 2500
    omega
  have hendless (k : Nat) : slowReads.stop ≠ slowReads.startOf endless k := by
    show 7500 ≠ (k + 1) * 9223372036854775808 + k * 2500
    omega
  have hkeeps := ((run_keeps_time hsecond Memory.services (Job.ofConfig Config.default) Metrics.zero
    Memory.empty false).1 slowReads_hasRoom).1
  obtain ⟨checks, hwaits⟩ := (run_keeps_time hendless Memory.services (Job.ofConfig Config.default)
    Metrics.zero Memory.empty false).2 fun _ _ => rfl
  exact ⟨slowReads_hasRoom, hkeeps, hkeeps.cycles 1, congrArg Run.cycles hwaits⟩

end Timeline

end CredentialRelay
