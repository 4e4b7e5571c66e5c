import Mathlib.Data.List.Forall2
import JobMatrix.Proofs.Run.Ledger

/-! # The trace of a run

The observers of a run are told of the starts and the ends of jobs and steps.
What they are told of one job follows its steps in order; what they are told of
all jobs together keeps to the limit, at every moment and in every order of the
moves.
-/

namespace JobMatrix.Run

def Happening.isHook : Happening → Bool
  | actionStart .. | actionEnd .. | abort => false
  | _ => true

def hooks (log : List Event) (place : Nat) : List Happening :=
  (happenings log place).filter (·.isHook)

/-- What the observers are told of a step: perhaps that it starts, its
    templates filled in, and then the result. -/
inductive StepTrace (job : PlannedJob) (step : PlannedStep) : List Happening → Prop
  | settled {state : StepState} : StepTrace job step [.stepFinish job (step.result state)]
  | ran {env inputs : Dict String} {run : Option String} {state : StepState} :
      StepTrace job step
        [.stepStart job { step with env, inputs, run }, .stepFinish job (step.result state)]

/-- What the observers are told of a job that ends with an outcome. -/
inductive JobTrace (job : PlannedJob) : JobOutcome → List Happening → Prop
  | refused : JobTrace job job.cancelled [.jobFinish job job.cancelled]
  | ran {blocks : List (List Happening)} {o : JobOutcome}
      (steps : List.Forall₂ (StepTrace job) job.steps blocks) :
      JobTrace job o (.jobStart job :: blocks.flatten ++ [.jobFinish job o])

def Stage.Traced (job : PlannedJob) (told : List Happening) : Stage → Prop
  | turning r => ∃ done blocks, job.steps = done ++ r.rest ∧
      List.Forall₂ (StepTrace job) done blocks ∧ told = .jobStart job :: blocks.flatten
  | acting r step _ => ∃ done blocks env inputs run, job.steps = done ++ step :: r.rest ∧
      List.Forall₂ (StepTrace job) done blocks ∧
      told = .jobStart job :: blocks.flatten ++ [.stepStart job { step with env, inputs, run }]
  | closing _ => ∃ blocks, List.Forall₂ (StepTrace job) job.steps blocks ∧
      told = .jobStart job :: blocks.flatten
  | reported _ o => JobTrace job o told

section Story

variable {w : World} {place : Nat} {job : PlannedJob}

theorem Story.traced {aborted : Bool} {told : List Happening} {x : Stage}
    (h : Story w place job aborted told x) : x.Traced job (told.filter (·.isHook)) := by
  induction h with
  | refused => exact .refused
  | started => exact ⟨[], [], rfl, .nil, rfl⟩
  | @settled aborted told r step rest s result before next turn last ih =>
      obtain ⟨done, blocks, steps, traced, same⟩ := ih
      obtain ⟨-, rfl⟩ := before.isOf
      obtain ⟨state, results⟩ := JobState.results_of_settled turn
      rw [results, List.getLast?_concat] at last
      obtain rfl := Option.some.inj last
      refine ⟨done ++ [step], blocks ++ [[.stepFinish r.job (step.result state)]], ?_,
        List.rel_append traced (.cons .settled .nil), ?_⟩
      · rw [steps, next, List.append_assoc]
        rfl
      · rw [List.filter_append, same, List.flatten_concat]
        rfl
  | @begun aborted told r step prepared rest s before next turn ih =>
      obtain ⟨done, blocks, steps, traced, same⟩ := ih
      obtain ⟨-, rfl⟩ := before.isOf
      obtain ⟨-, -, filled⟩ := JobState.turn_eq_started turn
      obtain ⟨env, inputs, run, rfl⟩ := PlannedStep.prepare_spec filled
      refine ⟨done, blocks, env, inputs, run, steps.trans (congrArg _ next), traced, ?_⟩
      rw [List.filter_append, List.filter_append, same]
      simp [Happening.isHook]
  | ended before ih =>
      rw [List.filter_append]
      simpa [Happening.isHook] using ih
  -- The start of the step is told already, and its result completes the block.
  | @completed aborted told r step how result before last ih =>
      obtain ⟨done, blocks, env, inputs, run, steps, traced, same⟩ := ih
      obtain ⟨-, rfl⟩ := before.isOf
      obtain ⟨state, results⟩ := r.state.results_complete step how.ending.result
      rw [results, List.getLast?_concat] at last
      obtain rfl := Option.some.inj last
      refine ⟨done ++ [step], blocks ++ [[.stepStart r.job { step with env, inputs, run },
        .stepFinish r.job (step.result state)]], ?_, List.rel_append traced (.cons .ran .nil), ?_⟩
      · rw [steps, List.append_assoc]
        rfl
      · rw [List.filter_append, same, List.flatten_concat]
        simp [Happening.isHook]
  | closed _ none ih =>
      obtain ⟨done, blocks, steps, traced, same⟩ := ih
      rw [none, List.append_nil] at steps
      exact ⟨blocks, steps ▸ traced, same⟩
  | @reported aborted told r before ih =>
      obtain ⟨blocks, traced, same⟩ := ih
      obtain ⟨-, rfl⟩ := before.isOf
      rw [List.filter_append, same]
      exact .ran traced
  | @raised told x _ ih => exact ih

end Story

namespace Pool

/-- **The trace of a run.**  In every order of the moves jobs start in the order
    of the list and so at most once, and at every moment the jobs under way are
    no more than the limit allows; they are as many whenever no worker can go
    on, the run is not cancelled, and a job has not started.  From everywhere
    the run comes to its end.  There every job has finished, and once, with the
    outcome that is reported for it; and what the observers are told of it is
    its refusal, or its start, the traces of its steps in order, and its
    finish. -/
theorem trace_law {w : World} (quiet : w.observer = none) {jobs : List PlannedJob}
    {limit : Option Number} {failFast : Bool} {c : Cancellation} {p : Pool}
    (reached : Reaches w (start w jobs limit failFast c) p) :
    (startedPlaces p.log).Pairwise (· < ·) ∧
    (∀ before, before <+: p.log → (inFlight before).length ≤ bound limit jobs.length) ∧
    (p.ready = [] → p.aborted = false → (∃ i < jobs.length, i ∉ startedPlaces p.log) →
      (inFlight p.log).length = bound limit jobs.length) ∧
    (∃ q, Reaches w p q ∧ q.IsOver) ∧
    (p.IsOver → (finishedPlaces p.log).Perm (List.range jobs.length) ∧
      ∀ i job, jobs[i]? = some job → ∃ o, (p.outcomesInOrder jobs.length)[i]? = some o ∧
        JobTrace job o (hooks p.log i)) := by
  have ok : p.failure = none := failure_of_reaches quiet reached
  refine ⟨?_, fun before first => ?_, ?_, ?_, fun ended => ⟨?_, fun i job found => ?_⟩⟩
  · exact (List.pairwise_append.mp (sound_of_start reached ok).order).1
  · obtain ⟨q, earlier, same⟩ := inFlight_of_prefix rfl reached first
    rw [same]
    exact inFlight_le earlier (failure_of_reaches quiet earlier)
  · rintro idle unaborted ⟨i, inside, unstarted⟩
    exact inFlight_eq_bound reached ok idle
      (waits_of_unstarted reached ok unaborted inside unstarted)
  · exact ⟨p.run w, reaches_run w p, isOver_run quiet ok⟩
  · exact finishedPlaces_perm reached ok ended
  · obtain ⟨o, present, story⟩ := story_of_isOver reached ok ended found
    exact ⟨o, (getElem?_outcomesInOrder reached ok ended found).trans present, story.traced⟩

theorem trace_law_one_at_a_time :
    let w := World.dry false none
    let jobs := [oneStep 0, oneStep 1]
    let p := (start w jobs (some 1) false .never).run w
    w.observer = none ∧ Reaches w (start w jobs (some 1) false .never) p ∧
      p.IsOver ∧ (finishedPlaces p.log).Perm [0, 1] ∧
        ∀ before, before <+: p.log → (inFlight before).length ≤ 1 := by
  intro w jobs p
  have reached : Reaches w (start w jobs (some 1) false .never) p := reaches_run w _
  have one : bound (some 1) jobs.length = 1 := by decide +kernel
  have ended : p.IsOver := isOver_run rfl rfl
  obtain ⟨-, inFlight_le, -, -, finish⟩ := trace_law rfl reached
  rw [one] at inFlight_le
  exact ⟨rfl, reached, ended, (finish ended).1, inFlight_le⟩

end Pool

end JobMatrix.Run
