import JobMatrix.Run.Job

/-! # What happens during a run

A run leaves a log: jobs and steps that start and finish, actions that begin
and end, and requests to cancel, each at its time.
-/

namespace JobMatrix.Run

/-- One thing that happens. -/
inductive Happening
  | jobStart (job : PlannedJob)
  | jobFinish (job : PlannedJob) (outcome : JobOutcome)
  | stepStart (job : PlannedJob) (step : PlannedStep)
  | actionStart (job : PlannedJob) (step : PlannedStep) (context : JobContext)
  | actionEnd (job : PlannedJob) (step : PlannedStep) (output : List String)
  | stepFinish (job : PlannedJob) (result : StepResult)
  | abort
  deriving Repr, DecidableEq

/-- Whether something belongs to the steps of a job, and not to the jobs of a
    run. -/
def Happening.isOfSteps : Happening → Bool
  | jobStart _ | jobFinish .. => false
  | _ => true

/-- Something that happens at a time. -/
structure Event where
  time : Nat
  /-- The place of the job that it belongs to; a request to cancel has none. -/
  place : Option Nat
  what : Happening
  deriving Repr, DecidableEq

end JobMatrix.Run
