import JobMatrix.Workflow.Strategy
import JobMatrix.Workflow.StepReader

/-! # Reading a workflow

A workflow is a map with a map of jobs.  Each job becomes a pipeline, in
order; its environment is written over that of the workflow.
-/

namespace JobMatrix.Workflow

/-- Whether data has the shape of a workflow: a map with a map of jobs. -/
def isWorkflow (value : Data) : Bool :=
  match value.getD "jobs" with
  | .map _ => true
  | _ => false

/-- Whether data has the shape of a job: a map with a runner and a list of
    steps. -/
def isJob (value : Data) : Bool :=
  match value.get? "runs-on", value.getD "steps" with
  | some _, .list _ => true
  | _, _ => false

def readLabel (value : Data) (path : String) : Except Error String :=
  let label := match value with
    | .list items => items.head?.getD .absent
    | other => other
  match label with
  | .text text =>
      let trimmed := Text.trim text
      if trimmed = "" then refuse path .expectedLabel else .ok trimmed
  | _ => refuse path .expectedLabel

def readSteps (path : String) (index : Nat) : List Data → Except Error (List DeclaredStep)
  | [] => .ok []
  | item :: rest => do
      let step ← readStep item index (path ++ s!".steps[{index}]")
      return step :: (← readSteps path (index + 1) rest)

/-- The first id that occurs a second time. -/
def firstRepeated? (seen : List String) : List String → Option String
  | [] => none
  | id :: rest => if seen.contains id then some id else firstRepeated? (id :: seen) rest

def defaultShell (job : Data) : Option String :=
  match ((job.getD "defaults").getD "run").getD "shell" with
  | .text shell => some shell
  | _ => none

def readJob (workflowEnv : Dict String) (id : String) (job : Data) : Except Error Pipeline := do
  let path := "jobs." ++ id
  if !isJob job then refuse path .malformedJob
  let runsOn ← readLabel (job.getD "runs-on") (path ++ ".runs-on")
  let items := match job.getD "steps" with
    | .list items => items
    | _ => []
  let steps ← readSteps path 0 items
  match firstRepeated? [] (steps.map (·.id)) with
  | some id => refuse path (.duplicateStepId id)
  | none => pure ()
  let env ← textDict (job.getD "env") (path ++ ".env")
  let strategy ← readStrategy (job.getD "strategy") (path ++ ".strategy")
  let name := match job.getD "name" with
    | .text name => name
    | _ => id
  return { id, name, runsOn, env := workflowEnv.merge env, strategy, steps, shell := defaultShell job }

def readJobs (workflowEnv : Dict String) : List (String × Data) → Except Error (List Pipeline)
  | [] => .ok []
  | (id, job) :: rest => do
      let pipeline ← readJob workflowEnv id job
      return pipeline :: (← readJobs workflowEnv rest)

def read (workflow : Data) : Except Error (List Pipeline) := do
  if !isWorkflow workflow then throw ⟨none, .missingJobs⟩
  let env ← textDict (workflow.getD "env") "env"
  let jobs := match workflow.getD "jobs" with
    | .map jobs => jobs
    | _ => []
  let pipelines ← readJobs env jobs
  if pipelines.isEmpty then refuse "jobs" .noJobs else return pipelines

end JobMatrix.Workflow
