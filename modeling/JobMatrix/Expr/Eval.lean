import JobMatrix.Expr.Function
import JobMatrix.Expr.Parser

/-! # Evaluation

The value of an expression in a context.  The logical operators evaluate
their right operand only when the left one does not decide, and the arguments
of a call are evaluated before the call is looked at.
-/

namespace JobMatrix.Expr

def Comparison.holds (op : Comparison) (left right : Value) : Bool :=
  match op with
  | equal => left.looseEquals right
  | notEqual => !left.looseEquals right
  | less => (left.compare right).isNegative
  | lessEqual => (left.compare right).isNegative || (left.compare right).isZero
  | greater => (left.compare right).isPositive
  | greaterEqual => (left.compare right).isPositive || (left.compare right).isZero

def Literal.toValue : Literal → Value
  | null => .null
  | bool value => .bool value
  | number value => .number value
  | string value => .text value

mutual

def eval (context : Context) : Expr → Except Cause Value
  | literal value => .ok value.toValue
  | .context name =>
      match context.lookup name with
      | none | some .null => .error (.unknownContext name)
      | some value => .ok value
  | index object key => do
      let target ← eval context object
      let key ← eval context key
      return target.property key
  | not operand => do
      let value ← eval context operand
      return .bool !value.isTruthy
  | logical op left right => do
      let value ← eval context left
      match op with
      | .and => if value.isTruthy then eval context right else return value
      | .or => if value.isTruthy then return value else eval context right
  | comparison op left right => do
      let a ← eval context left
      let b ← eval context right
      return .bool (op.holds a b)
  | call name arguments => do
      let values ← evalAll context arguments
      apply context name values

def evalAll (context : Context) : List Expr → Except Cause (List Value)
  | [] => .ok []
  | e :: rest => do
      let value ← eval context e
      let values ← evalAll context rest
      return value :: values

end

def evaluate (e : Expr) (context : Context) (source : String) : Except Error Value :=
  match eval context e with
  | .ok value => .ok value
  | .error cause => .error ⟨source, cause⟩

def evaluateText (source : String) (context : Context) : Except Error Value := do
  evaluate (← parse source) context source

mutual

/-- Whether a function that reads the status of the job is called anywhere. -/
def callsStatus : Expr → Bool
  | literal _ | .context _ => false
  | index object key => callsStatus object || callsStatus key
  | not operand => callsStatus operand
  | logical _ left right => callsStatus left || callsStatus right
  | comparison _ left right => callsStatus left || callsStatus right
  | call name arguments => statusFunctions.contains name || anyCallsStatus arguments

def anyCallsStatus : List Expr → Bool
  | [] => false
  | e :: rest => callsStatus e || anyCallsStatus rest

end

end JobMatrix.Expr
