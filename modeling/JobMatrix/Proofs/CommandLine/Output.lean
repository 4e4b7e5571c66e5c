import JobMatrix.Proofs.CommandLine.ExitStatus
import JobMatrix.Proofs.Plan.Accounting
import JobMatrix.Proofs.Run.Ending
import JobMatrix.Proofs.Workflow.Pipelines

/-! # Whose output is printed

What actions write is collected under the display name of a job and the id of a
step, over all pipelines of a session.  So what is printed below a failed step
is what every action has written whose job and step have these names.
-/

namespace JobMatrix

namespace CommandLine

open JobMatrix.Console (Color Line)

/-- An action that has ended, with what it has written. -/
structure Execution where
  pipeline : Nat
  place : Option Nat
  job : String
  step : String
  output : List String

namespace Execution

def ofEvent? (pipeline : Nat) (e : Run.Event) : Option Execution :=
  match e.what with
  | .actionEnd job step output => some ⟨pipeline, e.place, job.name, step.id, output⟩
  | _ => none

def key (x : Execution) : String :=
  Ran.outputKey x.job x.step

def text (x : Execution) : String :=
  String.join x.output

def isOf (pipeline place : Nat) (step : String) (x : Execution) : Bool :=
  x.pipeline = pipeline && x.place = some place && x.step = step

end Execution

namespace Ran

/-- The actions that have ended while one pipeline ran, in order. -/
def executionsOf (k : Nat) (r : Ran) : List Execution :=
  r.report.log.filterMap (Execution.ofEvent? k)

/-- The actions that have ended while pipelines ran, in order. -/
def executions (ran : List Ran) : List Execution :=
  ran.zipIdx.flatMap fun (r, k) => executionsOf k r

end Ran

namespace Ran

/-- The action of a step in the job at a place of a pipeline, if it has ended. -/
def own (ran : List Ran) (k place : Nat) (step : StepResult) : List Execution :=
  (executions ran).filter (·.isOf k place step.id)

end Ran

namespace Invocation

end Invocation

end CommandLine

end JobMatrix
