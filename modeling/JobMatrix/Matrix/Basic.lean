import JobMatrix.Data.Json

/-! # Build matrices

A build matrix has dimensions with ordered values, and rules that exclude
combinations of values, add fields to them, or add whole combinations.
-/

namespace JobMatrix

/-- A value in a matrix. -/
inductive Scalar
  | bool (value : Bool)
  | number (value : Number)
  | text (value : String)
  deriving Repr, DecidableEq, Inhabited

namespace Scalar

/-- Whether two values are equal: of one kind, and numbers by their value. -/
def equals : Scalar → Scalar → Bool
  | bool a, bool b => a == b
  | number a, number b => a.equals b
  | text a, text b => a == b
  | _, _ => false

def toData : Scalar → Data
  | bool value => .bool value
  | number value => .number value
  | text value => .text value

def toText : Scalar → String
  | bool value => if value then "true" else "false"
  | number value => value.toText
  | text value => value

/-- Plain data as a value: a truth value, a text, or a finite number. -/
def ofData? : Data → Option Scalar
  | .bool value => some (bool value)
  | .number value => if value.isFinite then some (number value) else none
  | .text value => some (text value)
  | _ => none

/-- The value with a negative zero replaced by the positive one. -/
def plainZero : Scalar → Scalar
  | number value => number value.plainZero
  | other => other

/-- Whether a set holds two values as one.  Unlike equality, this counts a
    number without a value as itself. -/
def isSame (a b : Scalar) : Bool :=
  a.plainZero == b.plainZero

end Scalar

namespace Matrix

/-- An assignment of values to keys: a candidate, a rule, or the values of a
    job. -/
abbrev Combination := Dict Scalar

def combination? : Data → Option Combination
  | .map entries =>
      (entries.mapM fun (entry : String × Data) =>
        (Scalar.ofData? entry.2).map fun value => (entry.1, value)).map Dict.ofList
  | _ => none

/-- A named axis of a matrix. -/
structure Dimension where
  name : String
  values : List Scalar
  deriving Repr, DecidableEq

/-- The matrix of a job and the limits on its runs. -/
structure Strategy where
  dimensions : List Dimension
  excludes : List Combination
  includes : List Combination
  failFast : Bool
  maxParallel : Option Nat
  deriving Repr, DecidableEq

def Strategy.default : Strategy := ⟨[], [], [], true, none⟩

/-- A combination that a matrix resolves to. -/
structure Resolved where
  index : Nat
  matrix : Combination
  synthesized : Bool
  deriving Repr, DecidableEq

end Matrix

end JobMatrix
