import JobMatrix.Run.Pool
import JobMatrix.Matrix.Unresolvable

/-! # Running a pipeline

A pipeline is resolved, planned and run.  It succeeds if every planned job
does; combinations that cannot be planned are reported beside the outcomes.
-/

namespace JobMatrix

/-- The result of a pipeline. -/
structure PipelineResult where
  success : Bool
  jobs : List JobOutcome
  unplannable : List UnplannableJob
  diagnostics : List Diagnostic
  deriving Repr, DecidableEq

def PipelineResult.status (r : PipelineResult) : String :=
  if r.success then "success" else "failure"

/-- Settings of a run that override those of its pipeline. -/
structure Overrides where
  runners : RunnerTable
  maxParallel : Option Number
  failFast : Option Bool

namespace Pipeline

def limit (p : Pipeline) (o : Overrides) : Option Number :=
  match o.maxParallel with
  | some n => some n
  | none => p.strategy.maxParallel.map Number.ofNat

def result (p : Pipeline) (plan : Plan) (outcomes : List JobOutcome) : PipelineResult where
  success := outcomes.all (·.status = .succeeded)
  jobs := outcomes
  unplannable := plan.unplannable
  diagnostics :=
    p.strategy.unresolvable.map (·.toDiagnostic) ++ plan.diagnostics
      ++ outcomes.flatMap (·.diagnostics)

/-- Resolves, plans and runs a pipeline, or gives the message of an observer
    that failed. -/
def run (p : Pipeline) (w : Run.World) (o : Overrides) (c : Run.Cancellation) :
    Except String (Run.Report PipelineResult) := do
  let plan := Plan.ofPipeline p o.runners
  let failFast := o.failFast.getD p.strategy.failFast
  let report ← Run.runJobs w plan.jobs (p.limit o) failFast c
  return ⟨report.log, p.result plan report.result⟩

end Pipeline

end JobMatrix
