/-! # Errors of expressions

An expression fails when it is read or when it is evaluated.  Each cause has
its own wording, and an error names the expression it belongs to.
-/

namespace JobMatrix.Expr

/-- Why an expression fails. -/
inductive Cause
  /-- A quoted text has no closing quote. -/
  | unterminatedString (position : Nat)
  /-- A character starts no lexeme. -/
  | unexpectedCharacter (c : Char) (position : Nat)
  /-- A mark is missing; `none` stands for the end of the expression. -/
  | expected (wanted : String) (position : Nat) (found : Option String)
  /-- A dot is not followed by a name. -/
  | expectedProperty (position : Nat)
  /-- A lexeme stands where none can. -/
  | unexpected (value : String) (position : Nat)
  /-- An operand is missing at the end. -/
  | unexpectedEnd
  /-- No context has this name. -/
  | unknownContext (name : String)
  /-- No function has this name. -/
  | unknownFunction (name : String)
  /-- A function has another count of arguments; `none` stands for any
      number of them. -/
  | wrongArity (name : String) (least : Nat) (most : Option Nat)
  deriving Repr, DecidableEq

def Cause.message : Cause → String
  | unterminatedString position => s!"unterminated string at {position}"
  | unexpectedCharacter c position =>
      "unexpected character \"" ++ String.singleton c ++ s!"\" at {position}"
  | expected wanted position found =>
      "expected \"" ++ wanted ++ s!"\" at {position}, found " ++
        match found with
        | none => "end of expression"
        | some value => "\"" ++ value ++ "\""
  | expectedProperty position => s!"expected property name at {position}"
  | unexpected value position => "unexpected \"" ++ value ++ s!"\" at {position}"
  | unexpectedEnd => "unexpected end of expression"
  | unknownContext name => "unknown context \"" ++ name ++ "\""
  | unknownFunction name => "unknown function \"" ++ name ++ "()\""
  | wrongArity name least most =>
      let count := match most with
        | none => s!"{least} to Infinity"
        | some most => if least = most then s!"{least}" else s!"{least} to {most}"
      name ++ "() takes " ++ count ++ " arguments"

/-- A failed expression. -/
structure Error where
  expression : String
  cause : Cause
  deriving Repr, DecidableEq

def Error.message (e : Error) : String :=
  "Cannot evaluate \"" ++ e.expression ++ "\": " ++ e.cause.message

end JobMatrix.Expr
