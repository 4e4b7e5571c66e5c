import JobMatrix.Workflow.Basic
import JobMatrix.Expr.Context

/-! # The context of a job

A job knows its matrix, its environment, its runner, its own status, and the
results of the steps that are over.  Expressions see all of it.
-/

namespace JobMatrix

/-- The status of a job as its expressions see it. -/
inductive JobStatus
  | success
  | failure
  | cancelled
  deriving Repr, DecidableEq

def JobStatus.name : JobStatus → String
  | success => "success"
  | failure => "failure"
  | cancelled => "cancelled"

/-- The result of a step as later expressions see it. -/
inductive Conclusion
  | success
  | failure
  | skipped
  deriving Repr, DecidableEq

def Conclusion.name : Conclusion → String
  | success => "success"
  | failure => "failure"
  | skipped => "skipped"

/-- What is recorded of a step that is over. -/
structure StepRecord where
  conclusion : Conclusion
  outcome : Conclusion
  deriving Repr, DecidableEq

def StepRecord.skipped : StepRecord := ⟨.skipped, .skipped⟩

/-- The values that a job offers to its expressions. -/
structure JobContext where
  runnerOs : Option String
  matrix : Matrix.Combination
  env : Dict String
  status : JobStatus
  steps : Dict StepRecord
  deriving Repr, DecidableEq

namespace JobContext

open JobMatrix.Expr (Value Node)

/-- The context that a job starts with; an operating system without a name has
    the empty one. -/
def start (matrix : Matrix.Combination) (env : Dict String) (runnerOs : Option String) :
    JobContext :=
  ⟨some (runnerOs.getD ""), matrix, env, .success, Dict.empty⟩

/-- The node that stands for every step that did not run. -/
def skippedNode : Node := [5]

def recordValue (node : Node) (r : StepRecord) : Value :=
  .map (if r = StepRecord.skipped then skippedNode else node)
    [("conclusion", .text r.conclusion.name), ("outcome", .text r.outcome.name)]

def scalarValue : Scalar → Value
  | .bool value => .bool value
  | .number value => .number value
  | .text value => .text value

def recordValues (i : Nat) : List (String × StepRecord) → List (String × Value)
  | [] => []
  | (id, r) :: rest => (id, recordValue [i, 4] r) :: recordValues (i + 1) rest

def toContext (c : JobContext) : Expr.Context :=
  ⟨[("runner", .map [0] (c.runnerOs.toList.map fun name => ("os", .text name))),
    ("matrix", .map [1] (c.matrix.entries.map fun (key, value) => (key, scalarValue value))),
    ("env", .map [2] (c.env.entries.map fun (key, value) => (key, Value.text value))),
    ("job", .map [3] [("status", .text c.status.name)]),
    ("steps", .map [4] (recordValues 0 c.steps.entries))]⟩

theorem status?_toContext (c : JobContext) : c.toContext.status? = some c.status.name := by
  simp [toContext, Expr.Context.status?, Entries.get?]

end JobContext

end JobMatrix
