import JobMatrix.Workflow.Basic
import JobMatrix.Diagnostic

/-! # Results

An action succeeds, fails with a message, or is rejected.  A step succeeds,
fails, or is skipped for a reason, and a job has the results of its steps.
-/

namespace JobMatrix

/-- The text of plain data in a message: a list is its items between commas,
    and a map has no text of its own. -/
def Data.display : Data → String
  | .absent => "undefined"
  | .null => "null"
  | .bool value => if value then "true" else "false"
  | .number value => value.toText
  | .text value => value
  | .map _ => "[object Object]"
  | .list items => ",".intercalate (displayItems items)
where
  displayItems : List Data → List String
    | [] => []
    | .absent :: rest | .null :: rest => "" :: displayItems rest
    | item :: rest => display item :: displayItems rest

/-- What an action reports. -/
structure ActionResult where
  success : Bool
  message : Option String
  deriving Repr, DecidableEq

/-- How an action ends. -/
inductive ActionEnd
  | completed (result : ActionResult)
  | failed (message : String)
  | rejected (reason : Data)
  deriving Repr

/-- The result that the end of an action counts as; breaking off is a
    failure. -/
def ActionEnd.result : ActionEnd → ActionResult
  | completed result => result
  | failed message => ⟨false, some message⟩
  | rejected reason => ⟨false, some reason.display⟩

/-- Why a step did not run. -/
inductive SkipReason
  | conditionError
  | priorFailure
  | condition
  | cancelled
  | platform
  deriving Repr, DecidableEq

def SkipReason.name : SkipReason → String
  | conditionError => "condition-error"
  | priorFailure => "prior-failure"
  | condition => "condition"
  | cancelled => "cancelled"
  | platform => "platform"

/-- The final state of a step. -/
inductive StepState
  | succeeded
  | failed (error : String)
  | skipped (reason : SkipReason)
  deriving Repr, DecidableEq

namespace StepState

def name : StepState → String
  | succeeded => "succeeded"
  | failed _ => "failed"
  | skipped _ => "skipped"

def failedWith (message : Option String) : StepState :=
  failed (message.getD "step failed")

end StepState

/-- The result of a step. -/
structure StepResult where
  id : String
  name : String
  policy : FailurePolicy
  state : StepState
  deriving Repr, DecidableEq

def PlannedStep.result (step : PlannedStep) (state : StepState) : StepResult :=
  ⟨step.id, step.name, step.policy, state⟩

/-- The final state of a job. -/
inductive OutcomeStatus
  | succeeded
  | failed
  | cancelled
  deriving Repr, DecidableEq

def OutcomeStatus.name : OutcomeStatus → String
  | succeeded => "succeeded"
  | failed => "failed"
  | cancelled => "cancelled"

/-- The outcome of a job. -/
structure JobOutcome where
  index : Nat
  name : String
  status : OutcomeStatus
  steps : List StepResult
  diagnostics : List Diagnostic
  stoppedAt : Option String
  deriving Repr, DecidableEq

end JobMatrix
