import CredentialRelay.Proofs.Cycle.Calls
import Mathlib.Data.List.Forall2

/-!
# Histories

One job runs cycle after cycle. Between two cycles the world may change in any way: the secret may
be written to or disappear, the vault may go down and come back, paths may be closed and opened. A
`Round` is one such change with the cycle behind it, and `history` are the turns of some rounds.

`steps` are the same turns, each with the work and the world that it began with.

A history is watched by running it in the world that keeps the calls, emptied before every cycle, so
that each turn holds its own calls only.

Results:
* `forall_history`, `forall_steps`: what every single cycle guarantees holds of every turn of a
  history.
* `history_through`, `watched_through`: watching a history changes nothing about it.
* `watched_course`: every turn of a watched history takes one of the four courses.
-/

namespace CredentialRelay.Cycle

variable {σ τ ν : Type}

/-- A change of the world, and what the clock says about the cycle behind it. -/
structure Round (σ : Type) where
  change : σ → σ
  timing : Timing

/-- The turns of a job, one for each round. -/
def history (services : Services σ ν) : Job → Metrics → σ → List (Round σ) → List (Turn σ)
  | _, _, _, [] => []
  | job, metrics, world, round :: rounds =>
    let turn := run services round.timing job metrics (round.change world)
    turn :: history services turn.job turn.metrics turn.world rounds

theorem length_history (services : Services σ ν) :
    ∀ (job : Job) (metrics : Metrics) (world : σ) (rounds : List (Round σ)),
      (history services job metrics world rounds).length = rounds.length
  | _, _, _, [] => rfl
  | _, _, _, _ :: rounds => congrArg (· + 1) (length_history services _ _ _ rounds)

/-- The work that some turns leave. -/
def jobAfter (job : Job) (turns : List (Turn σ)) : Job :=
  turns.foldl (fun _ turn => turn.job) job

theorem jobAfter_append_singleton (job : Job) (turns : List (Turn σ)) (turn : Turn σ) :
    jobAfter job (turns ++ [turn]) = turn.job := by
  unfold jobAfter
  rw [List.foldl_append]
  rfl

/-- **What every cycle guarantees holds of every turn**, with the work that the turns before it
left. -/
theorem forall_history {services : Services σ ν} {P : Job → Turn σ → Prop} :
    ∀ {rounds : List (Round σ)}, (∀ round ∈ rounds, ∀ job metrics world,
      P job (run services round.timing job metrics (round.change world))) →
    ∀ (job : Job) (metrics : Metrics) (world : σ) (i : Nat)
      (hi : i < (history services job metrics world rounds).length),
      P (jobAfter job ((history services job metrics world rounds).take i))
        (history services job metrics world rounds)[i]
  | [], _, _, _, _, _, hi => absurd hi (Nat.not_lt_zero _)
  | round :: _, h, job, metrics, world, 0, _ => h round List.mem_cons_self job metrics world
  | _ :: _, h, _, _, _, i + 1, hi =>
    forall_history (fun round hround => h round (List.mem_cons_of_mem _ hround)) _ _ _ i
      (Nat.lt_of_succ_lt_succ hi)

/-! ## Steps -/

/-- A turn with the work and the world that it began with. -/
structure Step (σ : Type) where
  job : Job
  before : σ
  turn : Turn σ

/-- The turns of a job, each with what it began with. -/
def steps (services : Services σ ν) : Job → Metrics → σ → List (Round σ) → List (Step σ)
  | _, _, _, [] => []
  | job, metrics, world, round :: rounds =>
    let turn := run services round.timing job metrics (round.change world)
    ⟨job, round.change world, turn⟩ :: steps services turn.job turn.metrics turn.world rounds

/-- The turns of the steps are those of the history. -/
theorem map_turn_steps (services : Services σ ν) :
    ∀ (job : Job) (metrics : Metrics) (world : σ) (rounds : List (Round σ)),
      (steps services job metrics world rounds).map Step.turn =
        history services job metrics world rounds
  | _, _, _, [] => rfl
  | _, _, _, _ :: rounds => congrArg (_ :: ·) (map_turn_steps services _ _ _ rounds)

/-- **What every cycle guarantees holds of every step.** -/
theorem forall_steps {services : Services σ ν} {P : Step σ → Prop}
    (h : ∀ timing job metrics before, P ⟨job, before, run services timing job metrics before⟩) :
    ∀ (job : Job) (metrics : Metrics) (world : σ) (rounds : List (Round σ)),
      ∀ step ∈ steps services job metrics world rounds, P step
  | _, _, _, [], _, hstep => absurd hstep List.not_mem_nil
  | job, metrics, world, round :: rounds, step, hstep => by
    rcases List.mem_cons.mp hstep with rfl | hstep
    · exact h round.timing job metrics (round.change world)
    · exact forall_steps h _ _ _ rounds step hstep

/-! ## Watching -/

/-- A round of the finer world is the one of the coarser world, seen through `f`. -/
def Round.Simulates (f : τ → σ) (fine : Round τ) (coarse : Round σ) : Prop :=
  fine.timing = coarse.timing ∧ ∀ w, f (fine.change w) = coarse.change (f w)

/-- Seen through `f`, a history of the finer world is the one of the coarser world. -/
theorem history_through {f : τ → σ} {fine : Services τ ν} {coarse : Services σ ν}
    (h : fine.Simulates f coarse) :
    ∀ {fines : List (Round τ)} {coarses : List (Round σ)},
      List.Forall₂ (Round.Simulates f) fines coarses →
      ∀ (job : Job) (metrics : Metrics) (w : τ),
        (history fine job metrics w fines).map (Turn.through f) =
          history coarse job metrics (f w) coarses
  | _, _, .nil, _, _, _ => rfl
  | round :: fines, round' :: coarses, .cons hround hrounds, job, metrics, w => by
    have hturn := run_through h round.timing job metrics (round.change w)
    have hrest := history_through h hrounds
    unfold history
    rw [List.map_cons, hrest, hturn, ← hround.1, ← hround.2, ← hturn]
    rfl

/-- The round in the world that keeps the calls, with those before it dropped. -/
def Round.watched (round : Round σ) : Round (Recorded σ) :=
  ⟨fun r => ⟨round.change r.world, []⟩, round.timing⟩

/-- The turns of a job, each with its calls. -/
def watched (services : Services σ ν) (job : Job) (metrics : Metrics) (world : σ)
    (rounds : List (Round σ)) : List (Turn (Recorded σ)) :=
  history services.recorded job metrics ⟨world, []⟩ (rounds.map Round.watched)

/-- **Watching changes nothing**: without their calls, the turns are those of the history. -/
theorem watched_through (services : Services σ ν) (job : Job) (metrics : Metrics) (world : σ)
    (rounds : List (Round σ)) :
    (watched services job metrics world rounds).map (Turn.through Recorded.world) =
      history services job metrics world rounds := by
  refine history_through services.recorded_simulates ?_ job metrics ⟨world, []⟩
  rw [List.forall₂_map_left_iff]
  exact List.forall₂_same.mpr fun _ _ => ⟨rfl, fun _ => rfl⟩

/-- The calls of a watched turn. -/
def Turn.calls (turn : Turn (Recorded σ)) : List Call :=
  turn.world.calls

/-- **Every watched turn takes one of the courses**, from the work that the turns before it left. -/
theorem watched_course (services : Services σ ν) (job : Job) (metrics : Metrics) (world : σ)
    (rounds : List (Round σ)) (i : Nat)
    (hi : i < (watched services job metrics world rounds).length) :
    let turns := watched services job metrics world rounds
    Course (jobAfter job (turns.take i)) turns[i].calls turns[i].outcome turns[i].job := by
  refine forall_history (P := fun job turn => Course job turn.calls turn.outcome turn.job)
    (fun round hround job metrics r => ?_) job metrics ⟨world, []⟩ i hi
  obtain ⟨origin, -, rfl⟩ := List.mem_map.mp hround
  obtain ⟨calls, hcalls, hcourse⟩ :=
    run_course services origin.timing job metrics ⟨origin.change r.world, []⟩
  have : (run services.recorded origin.timing job metrics
      ⟨origin.change r.world, []⟩).calls = calls := hcalls
  rw [← this] at hcourse
  exact hcourse

end CredentialRelay.Cycle
