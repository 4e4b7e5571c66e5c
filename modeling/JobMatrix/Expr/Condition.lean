import JobMatrix.Expr.Template

/-! # Conditions

A condition is an expression, perhaps wrapped like one in a template.  A
condition that calls no status function holds only while the job is
successful, and a missing one asks for nothing else.
-/

namespace JobMatrix.Expr

/-- The text between an opening and a closing that enclose a whole text. -/
def enclosed? (cs : List Char) : Option (List Char) :=
  match Text.dropStart? opening cs with
  | none => none
  | some rest =>
      (Text.dropStart? closing.reverse rest.reverse).map List.reverse

/-- A condition without the wrapper around it and without blanks at its ends;
    a text that only begins and ends with expressions is not wrapped. -/
def stripWrapper (condition : String) : String :=
  let trimmed := Text.trimChars condition.toList
  match enclosed? trimmed with
  | some inner =>
      if Text.contains inner opening then String.ofList trimmed
      else String.ofList (Text.trimChars inner)
  | none => String.ofList trimmed

def conditionText (condition : Option String) : String :=
  match condition with
  | none => ""
  | some text => stripWrapper text

def holds (condition : Option String) (context : Context) : Except Error Bool :=
  let source := conditionText condition
  if source = "" then .ok (context.hasStatus "success")
  else do
    let tree ← parse source
    if !callsStatus tree && !context.hasStatus "success" then return false
    else return (← evaluate tree context source).isTruthy

def overridesStatus (condition : Option String) : Except Error Bool :=
  let source := conditionText condition
  if source = "" then .ok false
  else do return callsStatus (← parse source)

end JobMatrix.Expr
