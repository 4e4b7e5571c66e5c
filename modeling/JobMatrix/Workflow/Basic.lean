import JobMatrix.Matrix.Basic

/-! # Workflows

A workflow declares pipelines.  A pipeline has a label for its runner, a
matrix, and steps that run a script or use an action.
-/

namespace JobMatrix

/-- A host platform. -/
inductive Platform
  | windows
  | macos
  | linux
  deriving Repr, DecidableEq

namespace Platform

def name : Platform → String
  | windows => "windows"
  | macos => "macos"
  | linux => "linux"

/-- The name of the operating system that expressions see. -/
def osName : Platform → String
  | windows => "Windows"
  | macos => "macOS"
  | linux => "Linux"

def ofName? : String → Option Platform
  | "windows" => some windows
  | "macos" => some macos
  | "linux" => some linux
  | _ => none

theorem ofName?_eq_some {name : String} {p : Platform} : ofName? name = some p ↔ name = p.name := by
  constructor
  · unfold ofName?
    split <;> simp_all <;> rintro rfl <;> rfl
  · rintro rfl
    cases p <;> rfl

end Platform

/-- Whether a failing step stops its job. -/
inductive FailurePolicy
  | tolerant
  | fatal
  deriving Repr, DecidableEq

def FailurePolicy.name : FailurePolicy → String
  | tolerant => "tolerant"
  | fatal => "fatal"

/-- What a step declares about going on after its failure. -/
inductive Tolerance
  | always (value : Bool)
  | expression (source : String)
  deriving Repr, DecidableEq

/-- What a step is, planned or not. -/
structure Step where
  id : String
  name : String
  platforms : Option (List Platform)
  inputs : Dict String
  env : Dict String
  condition : Option String
  run : Option String
  uses : Option String
  shell : Option String
  workingDirectory : Option String
  deriving Repr, DecidableEq

/-- A step as declared. -/
structure DeclaredStep extends Step where
  tolerance : Tolerance
  deriving Repr, DecidableEq

/-- A step of a planned job. -/
structure PlannedStep extends Step where
  policy : FailurePolicy
  deriving Repr, DecidableEq

/-- A job of a workflow as declared. -/
structure Pipeline where
  id : String
  name : String
  runsOn : String
  env : Dict String
  strategy : Matrix.Strategy
  steps : List DeclaredStep
  shell : Option String
  deriving Repr, DecidableEq

end JobMatrix
