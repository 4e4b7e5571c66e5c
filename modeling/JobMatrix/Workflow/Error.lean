import JobMatrix.Workflow.Basic

/-! # Errors of workflows

A workflow is refused at a place in it, for one cause.
-/

namespace JobMatrix.Workflow

/-- Why a workflow is refused. -/
inductive Cause
  | expectedMap
  | expectedList
  | expectedNonEmptyList
  | expectedString
  | expectedBoolean
  | expectedPositiveInteger
  | expectedBooleanOrExpression
  | expectedScalar
  | expectedScalars
  | expectedScalarMap
  | duplicateValue (value : Scalar)
  | expectedLabel
  | stepWithoutAction
  | stepWithTwoActions
  | invalidReference (reference : String)
  | unknownPlatform (value : Data)
  | duplicateStepId (id : String)
  | missingJobs
  | malformedJob
  | noJobs
  | malformedFile (path : String)
  deriving Repr

def Cause.message : Cause → String
  | expectedMap => "expected a map"
  | expectedList => "expected a list"
  | expectedNonEmptyList => "expected a non-empty list"
  | expectedString => "expected a string"
  | expectedBoolean => "expected a boolean"
  | expectedPositiveInteger => "expected a positive integer"
  | expectedBooleanOrExpression => "expected a boolean or an expression"
  | expectedScalar => "expected a scalar value"
  | expectedScalars => "expected scalar values"
  | expectedScalarMap => "expected a map of scalar values"
  | duplicateValue value => "duplicate value " ++ value.toData.toJson
  | expectedLabel => "expected a runner label"
  | stepWithoutAction => "a step must define \"run\" or \"uses\""
  | stepWithTwoActions => "a step cannot define both \"run\" and \"uses\""
  | invalidReference reference => "invalid action reference \"" ++ reference ++ "\""
  | unknownPlatform value => "unknown platform " ++ value.toJson
  | duplicateStepId id => "duplicate step id \"" ++ id ++ "\""
  | missingJobs => "workflow must contain a \"jobs\" map"
  | malformedJob => "a job must define \"runs-on\" and a \"steps\" list"
  | noJobs => "workflow defines no jobs"
  | malformedFile path => path ++ ": <yaml error>"

/-- A refused workflow. -/
structure Error where
  path : Option String
  cause : Cause
  deriving Repr

/-- The message of a refused workflow: the place, if it is not empty, and the
    cause. -/
def Error.message (e : Error) : String :=
  match e.path with
  | none => e.cause.message
  | some path => if path = "" then e.cause.message else path ++ ": " ++ e.cause.message

def refuse {α : Type} (path : String) (cause : Cause) : Except Error α :=
  .error ⟨some path, cause⟩

end JobMatrix.Workflow
