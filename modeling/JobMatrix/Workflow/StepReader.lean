import JobMatrix.Workflow.Fields
import JobMatrix.Workflow.ActionReference
import JobMatrix.Text.Lowercase

/-! # Reading a step

A step runs a script or uses an action, and not both.  Without a name it is
named for its action or the first line of its script, and without an id for
its place.
-/

namespace JobMatrix.Workflow

/-- Whether data has the shape of a step: a map with a script or an action. -/
def isStep (value : Data) : Bool :=
  match value.getD "run", value.getD "uses" with
  | .text _, _ | _, .text _ => true
  | _, _ => false

def defaultName (run uses : Option String) : String :=
  match uses with
  | some reference => reference
  | none =>
      let script := Text.trimChars (run.getD "").toList
      "Run " ++ String.ofList (script.takeWhile (· ≠ '\n'))

def readPlatformItems (path : String) : List Data → Except Error (List Platform)
  | [] => .ok []
  | item :: rest =>
      let name := match item with
        | .text text => Text.toLower text
        | _ => ""
      match Platform.ofName? name with
      | none => refuse path (.unknownPlatform item)
      | some platform => do return platform :: (← readPlatformItems path rest)

def readPlatforms (value : Data) (path : String) : Except Error (Option (List Platform)) :=
  match value with
  | .absent | .null => .ok none
  | .list items => do return some (← readPlatformItems path items)
  | item => do return some (← readPlatformItems path [item])

/-- Reads whether a job goes on after the failure of a step. -/
def readTolerance (value : Data) (path : String) : Except Error Tolerance :=
  match value with
  | .absent | .null => .ok (.always false)
  | .bool value => .ok (.always value)
  | .text source => .ok (.expression source)
  | _ => refuse path .expectedBooleanOrExpression

/-- Reads the condition of a step; a truth value or number is its text. -/
def readCondition (value : Data) (path : String) : Except Error (Option String) :=
  match value with
  | .bool value => .ok (some (if value then "true" else "false"))
  | .number value => .ok (some value.toText)
  | other => optionalText other path

/-- The id of a step that declares none, by its place in the list. -/
def generatedId (index : Nat) : String :=
  s!"step-{index + 1}"

def readStep (value : Data) (index : Nat) (path : String) : Except Error DeclaredStep := do
  if !isStep value then refuse path .stepWithoutAction
  let field := fun key => value.getD key
  let run ← optionalText (field "run") (path ++ ".run")
  let uses ← optionalText (field "uses") (path ++ ".uses")
  let uses := uses.map Text.trim
  if run.isSome && uses.isSome then refuse path .stepWithTwoActions
  match uses with
  | some reference =>
      if (ActionReference.parse? reference).isNone then
        refuse (path ++ ".uses") (.invalidReference reference)
  | none => pure ()
  let tolerance ← readTolerance (field "continue-on-error") (path ++ ".continue-on-error")
  let name ← optionalText (field "name") (path ++ ".name")
  let id ← optionalText (field "id") (path ++ ".id")
  let platforms ← readPlatforms (field "platform") (path ++ ".platform")
  let inputs ← textDict (field "with") (path ++ ".with")
  let env ← textDict (field "env") (path ++ ".env")
  let condition ← readCondition (field "if") (path ++ ".if")
  let shell ← optionalText (field "shell") (path ++ ".shell")
  let workingDirectory ←
    optionalText (field "working-directory") (path ++ ".working-directory")
  return {
    id := id.getD (generatedId index)
    name := name.getD (defaultName run uses)
    platforms, inputs, env, condition, run, uses, shell, workingDirectory, tolerance }

end JobMatrix.Workflow
