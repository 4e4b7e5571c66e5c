import JobMatrix.Run.Context
import JobMatrix.Run.Result
import JobMatrix.Plan.Basic

/-! # Running a job

The steps of a job take their turns in order.  At its turn a step is skipped,
fails before it starts, or starts its action; the end of the action settles
it.  After a fatal failure or a cancellation only those steps run whose
condition asks for the status of the job.
-/

namespace JobMatrix

/-- A job under way: what its expressions see, and what is settled so far. -/
structure JobState where
  context : JobContext
  results : List StepResult
  diagnostics : List Diagnostic
  stoppedAt : Option String
  deriving Repr, DecidableEq

/-- A job of a run under way. -/
structure Running where
  place : Nat
  job : PlannedJob
  state : JobState
  rest : List PlannedStep
  deriving Repr, DecidableEq

def JobStatus.outcome : JobStatus → OutcomeStatus
  | success => .succeeded
  | failure => .failed
  | cancelled => .cancelled

/-- Fills in the templates of a step: its environment first, then its inputs
    and its script, which see that environment. -/
def PlannedStep.prepare (step : PlannedStep) (context : Expr.Context) :
    Except Expr.Error PlannedStep := do
  let env ← Expr.interpolateDict step.env context
  let stepContext := context.withEnv env
  let inputs ← Expr.interpolateDict step.inputs stepContext
  match step.run with
  | none => return { step with env, inputs }
  | some script => return { step with env, inputs, run := some (← Expr.interpolate script stepContext) }

namespace JobState

def start (job : PlannedJob) : JobState :=
  ⟨JobContext.start job.matrix job.env job.runnerOs, [], [], none⟩

def status (s : JobState) : JobStatus :=
  s.context.status

/-- A request to cancel is noticed while the job is successful. -/
def notice (s : JobState) (aborted : Bool) : JobState :=
  if aborted && s.status = .success then
    { s with context := { s.context with status := .cancelled } }
  else s

def settle (s : JobState) (result : StepResult) (record : StepRecord) : JobState :=
  { s with
    results := s.results ++ [result]
    context := { s.context with steps := s.context.steps.assign result.id record } }

def skip (s : JobState) (step : PlannedStep) (reason : SkipReason) : JobState :=
  s.settle (step.result (.skipped reason)) StepRecord.skipped

def report (s : JobState) (job : PlannedJob) (step : PlannedStep) (e : Expr.Error) : JobState :=
  { s with
    diagnostics :=
      s.diagnostics ++ [⟨.conditionEvaluationError, e.message, some job.name, some step.id⟩] }

def stop (s : JobState) (step : PlannedStep) : JobState :=
  { s with
    stoppedAt := if s.status = .failure then s.stoppedAt else some step.id
    context := { s.context with status := .failure } }

/-- Settles a step by the result of its action; a fatal failure stops the
    job. -/
def complete (s : JobState) (step : PlannedStep) (result : ActionResult) : JobState :=
  if result.success then s.settle (step.result .succeeded) ⟨.success, .success⟩
  else
    let state := step.result (.failedWith result.message)
    match step.policy with
    | .fatal => (s.stop step).settle state ⟨.failure, .failure⟩
    | .tolerant => s.settle state ⟨.success, .failure⟩

/-- Why a step is skipped whose condition is false: the job has failed or is
    cancelled, unless the condition itself asks for the status. -/
def falseReason (s : JobState) (step : PlannedStep) : SkipReason :=
  let overrides := match Expr.overridesStatus step.condition with
    | .ok value => value
    | .error _ => false
  if s.status = .success || overrides then .condition
  else if s.status = .failure then .priorFailure
  else .cancelled

/-- What becomes of a step at its turn. -/
inductive Turn
  | settled (state : JobState)
  | started (state : JobState) (prepared : PlannedStep)
  deriving Repr

def turn (s : JobState) (job : PlannedJob) (aborted : Bool) (step : PlannedStep) : Turn :=
  let s := s.notice aborted
  if step.platforms.any (!job.platform.isAmong ·) then .settled (s.skip step .platform)
  else
    let context := s.context.toContext
    match Expr.holds step.condition context with
    | .error e => .settled ((s.report job step e).skip step .conditionError)
    | .ok false => .settled (s.skip step (s.falseReason step))
    | .ok true =>
        match step.prepare context with
        | .error e => .settled ((s.report job step e).complete step ⟨false, some e.message⟩)
        | .ok prepared => .started s prepared

def outcome (s : JobState) (job : PlannedJob) : JobOutcome :=
  ⟨job.index, job.name, s.status.outcome, s.results, s.diagnostics, s.stoppedAt⟩

/-- Runs steps one after another: `act` ends the actions, and `aborted` tells
    whether a request to cancel is there at a turn. -/
def runSteps (place : Nat) (job : PlannedJob) (act : Running → PlannedStep → ActionEnd)
    (aborted : Nat → Bool) (i : Nat) (s : JobState) : List PlannedStep → JobState
  | [] => s
  | step :: rest =>
      let s := match s.turn job (aborted i) step with
        | .settled s => s
        | .started s prepared => s.complete step (act ⟨place, job, s, rest⟩ prepared).result
      runSteps place job act aborted (i + 1) s rest

end JobState

namespace PlannedJob

def runAlone (job : PlannedJob) (place : Nat) (act : Running → PlannedStep → ActionEnd)
    (aborted : Nat → Bool) : JobOutcome :=
  ((JobState.start job).runSteps place job act aborted 0 job.steps).outcome job

def cancelled (job : PlannedJob) : JobOutcome :=
  ⟨job.index, job.name, .cancelled, job.steps.map (·.result (.skipped .cancelled)), [], none⟩

end PlannedJob

end JobMatrix
