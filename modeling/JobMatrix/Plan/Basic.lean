import JobMatrix.Plan.Runner
import JobMatrix.Run.Context
import JobMatrix.Expr.Condition
import JobMatrix.Matrix.Resolve
import JobMatrix.Diagnostic

/-! # Planning

Each resolved combination of a pipeline becomes a job bound to a platform, or
is reported with the reason why it cannot be planned.  How one combination is
planned does not depend on the others.
-/

namespace JobMatrix

/-- A job ready to run. -/
structure PlannedJob where
  index : Nat
  name : String
  matrix : Matrix.Combination
  env : Dict String
  steps : List PlannedStep
  platform : HostPlatform
  runnerOs : Option String
  runsOn : String
  shell : Option String
  deriving Repr, DecidableEq

/-- A combination that cannot be planned. -/
structure UnplannableJob where
  index : Nat
  name : String
  matrix : Matrix.Combination
  reason : String
  deriving Repr, DecidableEq

namespace Plan

/-- Why a combination cannot be planned. -/
inductive Cause
  /-- The label reads matrix keys that the combination lacks. -/
  | missingKeys (runsOn : String) (keys : List String)
  /-- The label has no platform. -/
  | unknownRunner (label : String)
  /-- A template or expression cannot be evaluated. -/
  | expression (error : Expr.Error)
  deriving Repr, DecidableEq

def Cause.message : Cause → String
  | missingKeys runsOn keys =>
      "runs-on \"" ++ runsOn ++ "\" needs " ++ ", ".intercalate (keys.map ("matrix." ++ ·))
        ++ ", which this job does not define"
  | unknownRunner label => "cannot resolve a platform for runner \"" ++ label ++ "\""
  | expression error => error.message

/-- The display name of a job: the name of its pipeline, followed by the
    values of its matrix in parentheses. -/
def jobName (name : String) (matrix : Matrix.Combination) : String :=
  if matrix.isEmpty then name
  else name ++ " (" ++ ", ".intercalate (matrix.values.map Scalar.toText) ++ ")"

def policy (tolerance : Tolerance) (context : Expr.Context) : Except Expr.Error FailurePolicy :=
  match tolerance with
  | .always value => .ok (if value then .tolerant else .fatal)
  | .expression text =>
      let source := Expr.stripWrapper text
      if source = "" then .ok .fatal
      else do
        let value ← Expr.evaluateText source context
        return if value.isTruthy then .tolerant else .fatal

/-- Plans a step: its policy and its name are settled, all else stays as
    declared. -/
def planStep (context : JobContext) (step : DeclaredStep) : Except Expr.Error PlannedStep := do
  let stepContext := context.toContext.withEnv step.env
  let policy ← policy step.tolerance stepContext
  let name ← Expr.interpolate step.name stepContext
  return { step.toStep with name, policy }

def planSteps (context : JobContext) : List DeclaredStep → Except Expr.Error (List PlannedStep)
  | [] => .ok []
  | step :: rest => do
      let planned ← planStep context step
      return planned :: (← planSteps context rest)

def ofExpr {α : Type} (r : Except Expr.Error α) : Except Cause α :=
  r.mapError Cause.expression

def planJob (p : Pipeline) (runners : RunnerTable) (r : Matrix.Resolved) :
    Except Cause PlannedJob := do
  let keys ← ofExpr (Expr.collectMatrixKeys p.runsOn)
  let missing := keys.filter fun key => !r.matrix.contains key
  if !missing.isEmpty then throw (.missingKeys p.runsOn missing)
  let bare := JobContext.start r.matrix Dict.empty none
  let label := Text.trim (← ofExpr (Expr.interpolate p.runsOn bare.toContext))
  let some platform := runners.platform? label | throw (.unknownRunner label)
  let hosted := { bare with runnerOs := platform.osName? }
  let env ← ofExpr (Expr.interpolateDict p.env hosted.toContext)
  let steps ← ofExpr (planSteps { hosted with env } p.steps)
  return {
    index := r.index
    name := jobName p.name r.matrix
    matrix := r.matrix
    runnerOs := platform.osName?
    runsOn := label
    shell := p.shell
    env, steps, platform }

/-- A combination with the reason why it cannot be planned. -/
def refused (p : Pipeline) (r : Matrix.Resolved) (cause : Cause) : UnplannableJob :=
  ⟨r.index, jobName p.name r.matrix, r.matrix, cause.message⟩

/-- Plans each combination, or says why it cannot be planned. -/
def planEach (p : Pipeline) (runners : RunnerTable) (resolved : List Matrix.Resolved) :
    List (Except UnplannableJob PlannedJob) :=
  resolved.map fun r => (planJob p runners r).mapError (refused p r)

def diagnostic (job : UnplannableJob) : Diagnostic :=
  ⟨.unplannableJob, job.reason, some job.name, none⟩

end Plan

/-- The plan of a pipeline. -/
structure Plan where
  jobs : List PlannedJob
  unplannable : List UnplannableJob
  diagnostics : List Diagnostic
  deriving Repr, DecidableEq

namespace Plan

def ofResolved (p : Pipeline) (runners : RunnerTable) (resolved : List Matrix.Resolved) : Plan :=
  let each := planEach p runners resolved
  let unplannable := each.filterMap fun
    | .error job => some job
    | .ok _ => none
  let jobs := each.filterMap fun
    | .ok job => some job
    | .error _ => none
  ⟨jobs, unplannable, unplannable.map diagnostic⟩

def ofPipeline (p : Pipeline) (runners : RunnerTable) : Plan :=
  ofResolved p runners p.strategy.resolve

end Plan

end JobMatrix
