/-! # Diagnostics

A diagnostic is a problem that is reported beside a result.
-/

namespace JobMatrix

/-- What a diagnostic is about. -/
inductive Diagnostic.Kind
  /-- A matrix rule names a value or dimension that nobody declared. -/
  | unresolvableDimensionValue
  /-- A condition or template of a step cannot be evaluated. -/
  | conditionEvaluationError
  /-- A combination has no runner. -/
  | unplannableJob
  deriving Repr, DecidableEq

def Diagnostic.Kind.name : Diagnostic.Kind → String
  | unresolvableDimensionValue => "UnresolvableDimensionValue"
  | conditionEvaluationError => "ConditionEvaluationError"
  | unplannableJob => "UnplannableJob"

/-- A reported problem. -/
structure Diagnostic where
  kind : Diagnostic.Kind
  message : String
  job : Option String
  step : Option String
  deriving Repr, DecidableEq

end JobMatrix
