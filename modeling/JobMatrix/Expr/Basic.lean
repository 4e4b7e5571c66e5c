import JobMatrix.Expr.Token
import JobMatrix.Number.Basic

/-! # Expressions

The tree of an expression: literals, contexts, property access, negation,
logical and comparing operators, and calls.
-/

namespace JobMatrix

namespace Expr

/-- A value written in an expression. -/
inductive Literal
  | null
  | bool (value : Bool)
  | number (value : Number)
  | string (value : String)
  deriving Repr, DecidableEq

/-- An operator that chooses one of its operands. -/
inductive Logical
  | and
  | or
  deriving Repr, DecidableEq

/-- An operator that compares its operands. -/
inductive Comparison
  | equal
  | notEqual
  | lessEqual
  | greaterEqual
  | less
  | greater
  deriving Repr, DecidableEq

end Expr

/-- A parsed expression. -/
inductive Expr
  | literal (value : Expr.Literal)
  | context (name : String)
  | index (object key : Expr)
  | not (operand : Expr)
  | logical (op : Expr.Logical) (left right : Expr)
  | comparison (op : Expr.Comparison) (left right : Expr)
  | call (name : String) (arguments : List Expr)
  deriving Repr, BEq, Inhabited

end JobMatrix
