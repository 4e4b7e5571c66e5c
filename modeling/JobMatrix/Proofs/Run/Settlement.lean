import Mathlib.Data.List.Forall2
import JobMatrix.Proofs.Run.Alone

/-! # What the steps of a job come to

A job keeps two accounts of itself: the status that its expressions see, and the
results of its steps.  They agree at every turn, so the outcome can be read off
the results.  What is reported beside the results are the expressions that could
not be evaluated, one for each step that has met one.
-/

namespace JobMatrix

/-- Whether a result stops its job: it is a failure under the fatal policy. -/
def StepResult.stops (r : StepResult) : Bool :=
  match r.policy, r.state with
  | .fatal, .failed _ => true
  | _, _ => false

/-- The status of a job by its results, and by whether the run was cancelled at
    the start of each turn so far. -/
def JobStatus.told (results : List StepResult) (flags : List Bool) : JobStatus :=
  if results.any (·.stops) then .failure else if true ∈ flags then .cancelled else .success

/-- One more turn makes a difference to a successful job only. -/
theorem JobStatus.told_concat (results : List StepResult) (flags : List Bool) (flag : Bool) :
    JobStatus.told results (flags ++ [flag]) =
      if flag && JobStatus.told results flags = .success then .cancelled
      else JobStatus.told results flags := by
  unfold JobStatus.told
  by_cases stopped : results.any (·.stops) = true
  · simp [stopped]
  · by_cases cancelled : true ∈ flags
    · simp [stopped, cancelled]
    · cases flag <;> simp [stopped, cancelled]

/-- An expression of a step that cannot be evaluated. -/
inductive Fault
  | condition (e : Expr.Error)
  /-- The condition is true, but some template of the step is malformed. -/
  | template (e : Expr.Error)

def Fault.error : Fault → Expr.Error
  | condition e | template e => e

namespace JobState

/-! ## The status and the results -/

/-- The status of a job and the step that has stopped it are those that its
    results tell. -/
structure Consistent (s : JobState) (flags : List Bool) : Prop where
  status : s.status = JobStatus.told s.results flags
  stoppedAt : s.stoppedAt = (s.results.find? (·.stops)).map (·.id)

section Consistent

variable {s : JobState} {flags : List Bool}

theorem consistent_start (job : PlannedJob) : (start job).Consistent [] :=
  ⟨rfl, rfl⟩

theorem Consistent.notice (h : s.Consistent flags) (flag : Bool) :
    (s.notice flag).Consistent (flags ++ [flag]) := by
  refine ⟨?_, ?_⟩
  · rw [results_notice, JobStatus.told_concat, ← h.status]
    unfold JobState.notice
    split <;> rfl
  · rw [results_notice, ← h.stoppedAt]
    unfold JobState.notice
    split <;> rfl

/-- A result that does not stop the job leaves its status as it is. -/
theorem Consistent.settle (h : s.Consistent flags) {result : StepResult} (record : StepRecord)
    (harmless : result.stops = false) : (s.settle result record).Consistent flags := by
  refine ⟨?_, ?_⟩
  · have same : JobStatus.told (s.results ++ [result]) flags = JobStatus.told s.results flags := by
      simp [JobStatus.told, harmless]
    exact h.status.trans same.symm
  · have same : (s.results ++ [result]).find? (·.stops) = s.results.find? (·.stops) := by
      simp [harmless]
    exact h.stoppedAt.trans (congrArg _ same.symm)

theorem Consistent.skip (h : s.Consistent flags) (step : PlannedStep) (reason : SkipReason) :
    (s.skip step reason).Consistent flags := by
  apply h.settle
  cases policy : step.policy <;> simp [PlannedStep.result, StepResult.stops, policy]

theorem Consistent.report (h : s.Consistent flags) (job : PlannedJob) (step : PlannedStep)
    (e : Expr.Error) : (s.report job step e).Consistent flags :=
  ⟨h.status, h.stoppedAt⟩

theorem Consistent.failure_iff (h : s.Consistent flags) :
    s.status = .failure ↔ (s.results.find? (·.stops)).isSome = true := by
  rw [h.status, List.find?_isSome, JobStatus.told]
  split_ifs <;> simp_all

/-- A result that stops the job is the first one unless the job has failed. -/
theorem Consistent.stop (h : s.Consistent flags) {step : PlannedStep} {state : StepState}
    (record : StepRecord) (fatal : (step.result state).stops = true) :
    ((s.stop step).settle (step.result state) record).Consistent flags := by
  refine ⟨?_, ?_⟩
  · have failed : JobStatus.told (s.results ++ [step.result state]) flags = .failure := by
      simp [JobStatus.told, fatal]
    exact failed.symm
  · show (if s.status = .failure then s.stoppedAt else some step.id) =
      ((s.results ++ [step.result state]).find? (·.stops)).map (·.id)
    rw [List.find?_append, h.stoppedAt]
    by_cases failed : s.status = .failure
    · rw [if_pos failed, Option.or_of_isSome (h.failure_iff.mp failed)]
    · have none : s.results.find? (·.stops) = none := by
        simpa using mt h.failure_iff.mpr failed
      rw [if_neg failed, none, Option.none_or, List.find?_cons_of_pos fatal]
      rfl

theorem Consistent.complete (h : s.Consistent flags) (step : PlannedStep) (result : ActionResult) :
    (s.complete step result).Consistent flags := by
  unfold JobState.complete
  split
  · apply h.settle
    cases policy : step.policy <;> simp [PlannedStep.result, StepResult.stops, policy]
  · dsimp only
    split
    · next policy =>
        apply h.stop
        simp [PlannedStep.result, StepResult.stops, StepState.failedWith, policy]
    · next policy =>
        apply h.settle
        simp [PlannedStep.result, StepResult.stops, policy]

/-- A turn keeps the two accounts of a job in step. -/
theorem Consistent.turn (h : s.Consistent flags) (job : PlannedJob) (flag : Bool)
    (step : PlannedStep) (how : JobState → PlannedStep → ActionEnd) :
    ((s.turn job flag step).settledBy how step).Consistent (flags ++ [flag]) := by
  have noticed := h.notice flag
  unfold JobState.turn
  dsimp only
  split
  · exact noticed.skip step .platform
  · split
    · exact (noticed.report job step _).skip step .conditionError
    · exact noticed.skip step _
    · split
      · exact (noticed.report job step _).complete step _
      · exact noticed.complete step _

end Consistent

/-! ## The faults of the steps -/

/-- The fault that a step has in a job that finds it in a state: none if it is
    for another platform, for then none of its expressions is looked at. -/
def fault? (s : JobState) (job : PlannedJob) (step : PlannedStep) : Option Fault :=
  if step.platforms.any (!job.platform.isAmong ·) then none
  else
    match Expr.holds step.condition s.context.toContext with
    | .error e => some (.condition e)
    | .ok false => none
    | .ok true =>
        match step.prepare s.context.toContext with
        | .error e => some (.template e)
        | .ok _ => none

def complaint? (job : PlannedJob) (found : JobState × PlannedStep) : Option Diagnostic :=
  (found.1.fault? job found.2).map fun fault =>
    ⟨.conditionEvaluationError, fault.error.message, some job.name, some found.2.id⟩

/-- A result that a step may have that is found in a state: a step is skipped
    for a condition error exactly if its condition is malformed, and a malformed
    template fails it. -/
def Settles (job : PlannedJob) (found : JobState × PlannedStep) (result : StepResult) : Prop :=
  ∃ state, result = found.2.result state ∧
    (state = .skipped .conditionError ↔ ∃ e, found.1.fault? job found.2 = some (.condition e)) ∧
    ∀ e, found.1.fault? job found.2 = some (.template e) → state = .failed e.message

theorem complete_eq (s : JobState) (step : PlannedStep) (result : ActionResult) :
    (s.complete step result).results =
      s.results ++ [step.result
        (if result.success then .succeeded else .failedWith result.message)] ∧
    (s.complete step result).diagnostics = s.diagnostics := by
  unfold JobState.complete
  split
  · exact ⟨rfl, rfl⟩
  · dsimp only
    split <;> exact ⟨rfl, rfl⟩

theorem diagnostics_notice (s : JobState) (flag : Bool) :
    (s.notice flag).diagnostics = s.diagnostics := by
  unfold JobState.notice
  split <;> rfl

theorem falseReason_ne_conditionError (s : JobState) (step : PlannedStep) :
    s.falseReason step ≠ .conditionError := by
  unfold falseReason
  dsimp only
  split_ifs <;> exact SkipReason.noConfusion

theorem settles_turn (s : JobState) (job : PlannedJob) (flag : Bool) (step : PlannedStep)
    (how : JobState → PlannedStep → ActionEnd) :
    ∃ result, Settles job (s.notice flag, step) result ∧
      ((s.turn job flag step).settledBy how step).results = s.results ++ [result] ∧
      ((s.turn job flag step).settledBy how step).diagnostics =
        s.diagnostics ++ (complaint? job (s.notice flag, step)).toList := by
  rw [← results_notice s flag, ← diagnostics_notice s flag]
  simp only [Settles, complaint?, JobState.turn, fault?]
  generalize s.notice flag = found
  by_cases elsewhere : step.platforms.any (!job.platform.isAmong ·) = true
  · simp only [if_pos elsewhere]
    exact ⟨_, ⟨.skipped .platform, rfl, by simp, by simp⟩, rfl, (List.append_nil _).symm⟩
  · simp only [if_neg elsewhere]
    cases Expr.holds step.condition found.context.toContext with
    | error e => exact ⟨_, ⟨.skipped .conditionError, rfl, by simp, by simp⟩, rfl, rfl⟩
    | ok runs =>
        cases runs with
        | false =>
            exact ⟨_, ⟨.skipped (found.falseReason step), rfl,
              by simp [falseReason_ne_conditionError], by simp⟩, rfl, (List.append_nil _).symm⟩
        | true =>
            cases step.prepare found.context.toContext with
            | error e =>
                obtain ⟨results, diagnostics⟩ :=
                  complete_eq (found.report job step e) step ⟨false, some e.message⟩
                exact ⟨_, ⟨.failed e.message, rfl, by simp, by simp⟩, results, diagnostics⟩
            | ok prepared =>
                obtain ⟨results, diagnostics⟩ := complete_eq found step (how found prepared).result
                refine ⟨_, ⟨_, rfl, ?_, by simp⟩, results,
                  diagnostics.trans (List.append_nil _).symm⟩
                split <;> simp [StepState.failedWith]

/-! ## All turns of a job -/

def turns (place : Nat) (job : PlannedJob) (act : Running → PlannedStep → ActionEnd)
    (aborted : Nat → Bool) (i : Nat) (s : JobState) : List PlannedStep → List (JobState × PlannedStep)
  | [] => []
  | step :: rest =>
      (s.notice (aborted i), step) ::
        ((s.turn job (aborted i) step).settledBy
          (fun s prepared => act ⟨place, job, s, rest⟩ prepared) step).turns place job act aborted
          (i + 1) rest

section Turns

variable (place : Nat) (job : PlannedJob) (act : Running → PlannedStep → ActionEnd)
  (aborted : Nat → Bool)

theorem map_step_turns (i : Nat) (s : JobState) (steps : List PlannedStep) :
    (s.turns place job act aborted i steps).map Prod.snd = steps := by
  induction steps generalizing i s with
  | nil => rfl
  | cons step rest ih => rw [turns, List.map_cons, ih]

theorem consistent_runSteps {s : JobState} {flags : List Bool} (h : s.Consistent flags) (i : Nat)
    (steps : List PlannedStep) :
    (s.runSteps place job act aborted i steps).Consistent
      (flags ++ (List.range' i steps.length).map aborted) := by
  induction steps generalizing s flags i with
  | nil => simpa [runSteps] using h
  | cons step rest ih =>
      rw [runSteps_cons, List.length_cons, List.range'_succ, List.map_cons, ← List.singleton_append,
        ← List.append_assoc]
      exact ih (h.turn job (aborted i) step _) (i + 1)

theorem settles_runSteps (i : Nat) (s : JobState) (steps : List PlannedStep) :
    ∃ results, List.Forall₂ (Settles job) (s.turns place job act aborted i steps) results ∧
      (s.runSteps place job act aborted i steps).results = s.results ++ results ∧
      (s.runSteps place job act aborted i steps).diagnostics =
        s.diagnostics ++ (s.turns place job act aborted i steps).filterMap (complaint? job) := by
  induction steps generalizing i s with
  | nil => exact ⟨[], .nil, by simp [runSteps], by simp [runSteps, turns]⟩
  | cons step rest ih =>
      obtain ⟨result, settles, results, diagnostics⟩ := settles_turn s job (aborted i) step
        fun s prepared => act ⟨place, job, s, rest⟩ prepared
      obtain ⟨others, settle, moreResults, moreDiagnostics⟩ := ih (i + 1)
        ((s.turn job (aborted i) step).settledBy
          (fun s prepared => act ⟨place, job, s, rest⟩ prepared) step)
      refine ⟨result :: others, .cons settles settle, ?_, ?_⟩
      · rw [runSteps_cons, moreResults, results, List.append_assoc]
        rfl
      · rw [runSteps_cons, moreDiagnostics, diagnostics, turns, List.append_assoc]
        congr 1
        cases complaint : complaint? job (s.notice (aborted i), step) with
        | none => rw [List.filterMap_cons_none complaint, Option.toList_none, List.nil_append]
        | some d => rw [List.filterMap_cons_some complaint, Option.toList_some, List.singleton_append]

end Turns

end JobState

/-! ## The outcome -/

/-- What the outcome of a job tells if `flags` say, turn by turn, whether the run
    was cancelled when the turn began. -/
structure JobOutcome.Lawful (place : Nat) (job : PlannedJob)
    (act : Running → PlannedStep → ActionEnd) (flags : List Bool) (o : JobOutcome) : Prop where
  turns : flags.length = job.steps.length
  steps : o.steps.map (fun r => (r.id, r.name, r.policy)) =
    job.steps.map fun step => (step.id, step.name, step.policy)
  failed : o.status = .failed ↔ ∃ r ∈ o.steps, r.stops = true
  stoppedAt : o.stoppedAt = (o.steps.find? (·.stops)).map (·.id)
  cancelled : o.status = .cancelled ↔ (∀ r ∈ o.steps, r.stops = false) ∧ true ∈ flags
  succeeded : o.status = .succeeded ↔ (∀ r ∈ o.steps, r.stops = false) ∧ true ∉ flags
  settles : List.Forall₂ (JobState.Settles job)
    ((JobState.start job).turns place job act (flags.getD · false) 0 job.steps) o.steps
  diagnostics : o.diagnostics =
    ((JobState.start job).turns place job act (flags.getD · false) 0 job.steps).filterMap
      (JobState.complaint? job)

theorem JobState.map_of_settles {job : PlannedJob} {found : List (JobState × PlannedStep)}
    {results : List StepResult} (h : List.Forall₂ (Settles job) found results) :
    results.map (fun r => (r.id, r.name, r.policy)) =
      (found.map Prod.snd).map fun step => (step.id, step.name, step.policy) := by
  induction h with
  | nil => rfl
  | cons settles _ ih =>
      obtain ⟨state, rfl, -⟩ := settles
      rw [List.map_cons, ih]
      rfl

theorem PlannedJob.lawful_runAlone (place : Nat) {job : PlannedJob}
    (act : Running → PlannedStep → ActionEnd) {flags : List Bool}
    (complete : flags.length = job.steps.length) :
    (job.runAlone place act (flags.getD · false)).Lawful place job act flags := by
  have consistent := JobState.consistent_runSteps place job act (flags.getD · false)
    (JobState.consistent_start job) 0 job.steps
  obtain ⟨results, settles, same, diagnostics⟩ := JobState.settles_runSteps place job act
    (flags.getD · false) 0 (JobState.start job) job.steps
  have all : [] ++ (List.range' 0 job.steps.length).map (flags.getD · false) = flags := by
    rw [← complete, List.nil_append]
    apply List.ext_getElem
    · simp
    · intro i _ inside
      simp [inside]
  rw [all] at consistent
  have steps : (job.runAlone place act (flags.getD · false)).steps = results := same
  have status : (job.runAlone place act (flags.getD · false)).status =
      (JobStatus.told (job.runAlone place act (flags.getD · false)).steps flags).outcome :=
    congrArg JobStatus.outcome consistent.status
  refine ⟨complete, ?_, ?_, consistent.stoppedAt, ?_, ?_, steps ▸ settles, diagnostics⟩
  · rw [steps, JobState.map_of_settles settles, JobState.map_step_turns]
  all_goals
    rw [status, JobStatus.told]
    split_ifs <;> simp_all [JobStatus.outcome]

end JobMatrix
