import JobMatrix.Matrix.Basic
import JobMatrix.Diagnostic

/-! # References to undeclared values

A rule may name a value that its dimension does not declare, and an exclude
rule may name a key that is no dimension; such rules do nothing that their
author meant.
-/

namespace JobMatrix.Matrix

/-- A reference of a rule that nothing declares. -/
inductive Unresolvable
  | unknownDimension (rule : Nat) (key : String)
  | excludedValue (rule : Nat) (key : String) (value : Scalar)
  | includedValue (rule : Nat) (key : String) (value : Scalar)
  deriving Repr, DecidableEq

def Unresolvable.message : Unresolvable → String
  | unknownDimension rule key => s!"exclude[{rule}] names unknown dimension \"" ++ key ++ "\""
  | excludedValue rule key value =>
      s!"exclude[{rule}] names undeclared value " ++ value.toData.toJson ++ " for \"" ++ key ++ "\""
  | includedValue rule key value =>
      s!"include[{rule}] names undeclared value " ++ value.toData.toJson ++ " for \"" ++ key ++ "\""

def Unresolvable.toDiagnostic (u : Unresolvable) : Diagnostic :=
  ⟨.unresolvableDimensionValue, u.message, none, none⟩

def declared? (dimensions : List Dimension) (name : String) : Option (List Scalar) :=
  (dimensions.reverse.find? fun d => d.name == name).map (·.values)

def unresolvableInExclude (dimensions : List Dimension) (index : Nat) (rule : Combination) :
    List Unresolvable :=
  rule.entries.filterMap fun (key, value) =>
    match declared? dimensions key with
    | none => some (.unknownDimension index key)
    | some values =>
        if values.any (·.isSame value) then none else some (.excludedValue index key value)

def unresolvableInInclude (dimensions : List Dimension) (index : Nat) (rule : Combination) :
    List Unresolvable :=
  rule.entries.filterMap fun (key, value) =>
    match declared? dimensions key with
    | none => none
    | some values =>
        if values.any (·.isSame value) then none else some (.includedValue index key value)

/-- All references of a strategy that nothing declares, exclude rules first. -/
def Strategy.unresolvable (s : Strategy) : List Unresolvable :=
  (s.excludes.zipIdx.flatMap fun (rule, i) => unresolvableInExclude s.dimensions i rule)
    ++ s.includes.zipIdx.flatMap fun (rule, i) => unresolvableInInclude s.dimensions i rule

end JobMatrix.Matrix
