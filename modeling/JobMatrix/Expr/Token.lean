import JobMatrix.Text.Units

/-! # Tokens of an expression

An expression is a row of lexemes, each with its offset in 16-bit units; the
last one marks the end.
-/

namespace JobMatrix.Expr

/-- An operator between or before operands. -/
inductive Operator
  | equal
  | notEqual
  | lessEqual
  | greaterEqual
  | and
  | or
  | less
  | greater
  | not
  deriving Repr, DecidableEq

def Operator.text : Operator → String
  | equal => "=="
  | notEqual => "!="
  | lessEqual => "<="
  | greaterEqual => ">="
  | and => "&&"
  | or => "||"
  | less => "<"
  | greater => ">"
  | not => "!"

/-- A bracket or separator. -/
inductive Punctuator
  | openParen
  | closeParen
  | openBracket
  | closeBracket
  | comma
  | dot
  deriving Repr, DecidableEq

def Punctuator.text : Punctuator → String
  | openParen => "("
  | closeParen => ")"
  | openBracket => "["
  | closeBracket => "]"
  | comma => ","
  | dot => "."

/-- A lexeme without its place. -/
inductive Lexeme
  | identifier (name : String)
  | number (text : String)
  | string (value : String)
  | operator (op : Operator)
  | punctuator (mark : Punctuator)
  | finish
  deriving Repr, DecidableEq

namespace Lexeme

def value : Lexeme → String
  | identifier name => name
  | number text => text
  | string value => value
  | operator op => op.text
  | punctuator mark => mark.text
  | finish => ""

/-- The written form of a lexeme; a quoted text has its quotes doubled. -/
def source : Lexeme → List Char
  | string value => '\'' :: value.toList.flatMap (fun c => if c = '\'' then ['\'', '\''] else [c]) ++ ['\'']
  | other => other.value.toList

/-- Whether a lexeme ends an operand, so that a dash behind it cannot start a
    negative number. -/
def endsOperand : Lexeme → Bool
  | identifier _ | number _ | string _ => true
  | punctuator .closeParen | punctuator .closeBracket => true
  | _ => false

end Lexeme

/-- A lexeme at its offset. -/
structure Token where
  lexeme : Lexeme
  position : Nat
  deriving Repr, DecidableEq

end JobMatrix.Expr
