import JobMatrix.Workflow.Fields

/-! # Reading a strategy

The strategy of a job is a map.  Its matrix declares dimensions, each a list
of distinct scalars, and two lists of rules under reserved keys.
-/

namespace JobMatrix.Workflow

open JobMatrix.Matrix (Combination Dimension Strategy combination?)

def readRules (path : String) (index : Nat) : List Data → Except Error (List Combination)
  | [] => .ok []
  | item :: rest =>
      match combination? item with
      | none => refuse (path ++ s!"[{index}]") .expectedScalarMap
      | some rule => do return rule :: (← readRules path (index + 1) rest)

def ruleList (value : Data) (path : String) : Except Error (List Combination) :=
  match value with
  | .absent | .null => .ok []
  | .list items => readRules path 0 items
  | _ => refuse path .expectedList

/-- Reads the values of a dimension behind those already seen, in reverse
    order. -/
def readValues (path : String) (seen : List Scalar) : List Data → Except Error (List Scalar)
  | [] => .ok seen.reverse
  | item :: rest =>
      match Scalar.ofData? item with
      | none => refuse path .expectedScalars
      | some value =>
          if seen.any (·.equals value) then refuse path (.duplicateValue value)
          else readValues path (value.plainZero :: seen) rest

def dimensionValues (value : Data) (path : String) : Except Error (List Scalar) :=
  match value with
  | .list (item :: rest) => readValues path [] (item :: rest)
  | _ => refuse path .expectedNonEmptyList

def readMatrixEntry (path : String) (s : Strategy) (name : String) (value : Data) :
    Except Error Strategy := do
  let place := path ++ ".matrix." ++ name
  if name = "include" then return { s with includes := ← ruleList value place }
  else if name = "exclude" then return { s with excludes := ← ruleList value place }
  else return { s with dimensions := s.dimensions ++ [⟨name, ← dimensionValues value place⟩] }

def readMatrix (path : String) : Strategy → List (String × Data) → Except Error Strategy
  | s, [] => .ok s
  | s, (name, value) :: rest => do
      readMatrix path (← readMatrixEntry path s name value) rest

/-- Reads whether a failed job cancels the others. -/
def readFailFast (value : Data) (path : String) : Except Error Bool :=
  match value with
  | .absent => .ok true
  | .bool value => .ok value
  | _ => refuse path .expectedBoolean

/-- Reads how many jobs run at once. -/
def readMaxParallel (value : Data) (path : String) : Except Error (Option Nat) :=
  match value with
  | .absent => .ok none
  | .number n =>
      match n.toNat? with
      | some (count + 1) => .ok (some (count + 1))
      | _ => refuse path .expectedPositiveInteger
  | _ => refuse path .expectedPositiveInteger

def readStrategy (value : Data) (path : String) : Except Error Strategy :=
  match value with
  | .absent | .null => .ok Strategy.default
  | .map entries => do
      let field := fun key => (Entries.get? key entries).getD .absent
      let failFast ← readFailFast (field "fail-fast") (path ++ ".fail-fast")
      let maxParallel ← readMaxParallel (field "max-parallel") (path ++ ".max-parallel")
      let s := { Strategy.default with failFast, maxParallel }
      match field "matrix" with
      | .absent => return s
      | .map dimensions => readMatrix path s dimensions
      | _ => refuse (path ++ ".matrix") .expectedMap
  | _ => refuse path .expectedMap

end JobMatrix.Workflow
