import JobMatrix.Run.Job
import JobMatrix.Proofs.Success

/-! # The turn of a step

What one turn can do: it adds one result, that of the step, or it starts the
step with its templates filled in.  A job that is not successful starts only
the steps whose condition asks for the status.
-/

namespace JobMatrix

namespace Expr

/-- A condition that holds while the job is not successful calls a status
    function. -/
theorem overridesStatus_of_holds {condition : Option String} {context : Context}
    (unsuccessful : context.hasStatus "success" = false)
    (h : holds condition context = .ok true) : overridesStatus condition = .ok true := by
  simp only [holds, unsuccessful] at h
  simp only [overridesStatus]
  split at h
  · cases h
  · next nonempty =>
      rw [if_neg nonempty]
      obtain ⟨tree, parsed, h⟩ := exists_of_bind_eq_ok h
      rw [parsed]
      cases calls : callsStatus tree with
      | true => exact congrArg Except.ok calls
      | false =>
          simp only [calls, Bool.not_false, Bool.and_self, if_true] at h
          cases h

end Expr

theorem JobContext.hasStatus_success (c : JobContext) :
    c.toContext.hasStatus "success" = decide (c.status = .success) := by
  rw [Expr.Context.hasStatus, JobContext.status?_toContext]
  cases c.status <;> decide

/-- Filling in templates leaves a step its identity and its condition. -/
theorem PlannedStep.prepare_spec {step prepared : PlannedStep} {context : Expr.Context}
    (h : step.prepare context = .ok prepared) :
    ∃ env inputs run, prepared = { step with env, inputs, run } := by
  obtain ⟨env, -, h⟩ := exists_of_bind_eq_ok h
  obtain ⟨inputs, -, h⟩ := exists_of_bind_eq_ok h
  split at h
  · next absent =>
      cases h
      exact ⟨env, inputs, none, by rw [← absent]⟩
  · obtain ⟨run, -, h⟩ := exists_of_bind_eq_ok h
    cases h
    exact ⟨env, inputs, some run, rfl⟩

namespace JobState

theorem results_notice (s : JobState) (aborted : Bool) :
    (s.notice aborted).results = s.results := by
  unfold notice
  split <;> rfl

theorem results_complete (s : JobState) (step : PlannedStep) (result : ActionResult) :
    ∃ state, (s.complete step result).results = s.results ++ [step.result state] := by
  unfold complete
  split
  · exact ⟨_, rfl⟩
  · dsimp only
    split <;> exact ⟨_, rfl⟩

/-- A turn that settles its step has noticed a request to cancel, has perhaps told
    of a fault, and then skips the step or fails it by a template. -/
theorem turn_eq_settled {s s' : JobState} {job : PlannedJob} {aborted : Bool}
    {step : PlannedStep} (h : s.turn job aborted step = .settled s') :
    ∃ diagnostics,
      (∃ reason, s' = ({ s.notice aborted with diagnostics }).skip step reason) ∨
      ∃ message,
        s' = ({ s.notice aborted with diagnostics }).complete step ⟨false, some message⟩ := by
  unfold turn at h
  dsimp only at h
  split at h
  · cases h
    exact ⟨_, .inl ⟨.platform, rfl⟩⟩
  · split at h
    · cases h
      exact ⟨_, .inl ⟨.conditionError, rfl⟩⟩
    · cases h
      exact ⟨_, .inl ⟨_, rfl⟩⟩
    · split at h
      · next e _ =>
          cases h
          exact ⟨_, .inr ⟨e.message, rfl⟩⟩
      · cases h

theorem results_of_settled {s s' : JobState} {job : PlannedJob} {aborted : Bool}
    {step : PlannedStep} (h : s.turn job aborted step = .settled s') :
    ∃ state, s'.results = s.results ++ [step.result state] := by
  rw [← results_notice s aborted]
  obtain ⟨diagnostics, ⟨reason, rfl⟩ | ⟨message, rfl⟩⟩ := turn_eq_settled h
  · exact ⟨.skipped reason, rfl⟩
  · exact results_complete _ step _

/-- A turn that starts its step has found the condition true, and has changed
    nothing but to notice a request to cancel. -/
theorem turn_eq_started {s s' : JobState} {job : PlannedJob} {aborted : Bool}
    {step prepared : PlannedStep} (h : s.turn job aborted step = .started s' prepared) :
    s' = s.notice aborted ∧ Expr.holds step.condition s'.context.toContext = .ok true ∧
      step.prepare s'.context.toContext = .ok prepared := by
  unfold turn at h
  dsimp only at h
  split at h
  · cases h
  · split at h
    · cases h
    · cases h
    · next holds =>
        split at h
        · cases h
        · next filled =>
            cases h
            exact ⟨rfl, holds, filled⟩

theorem status_notice_ne_success (s : JobState) : (s.notice true).status ≠ .success := by
  unfold notice
  split
  · exact JobStatus.noConfusion
  · next h => simpa using h

/-- Once the run is cancelled, a step starts only if its condition calls a
    status function. -/
theorem overridesStatus_of_started {s s' : JobState} {job : PlannedJob}
    {step prepared : PlannedStep} (h : s.turn job true step = .started s' prepared) :
    Expr.overridesStatus prepared.condition = .ok true := by
  obtain ⟨rfl, holds, filled⟩ := turn_eq_started h
  have same : prepared.condition = step.condition := by
    obtain ⟨env, inputs, run, rfl⟩ := PlannedStep.prepare_spec filled
    rfl
  rw [same]
  apply Expr.overridesStatus_of_holds _ holds
  rw [JobContext.hasStatus_success]
  exact decide_eq_false (status_notice_ne_success s)

end JobState

end JobMatrix
