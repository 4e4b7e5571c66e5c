import JobMatrix.Workflow.Error

/-! # Fields of a workflow

Optional texts and flat maps of texts are read alike wherever they stand.
-/

namespace JobMatrix.Workflow

def optionalText (value : Data) (path : String) : Except Error (Option String) :=
  match value with
  | .absent | .null => .ok none
  | .text text => .ok (some text)
  | _ => refuse path .expectedString

def scalarText? : Data → Option String
  | .text text => some text
  | .number value => some value.toText
  | .bool value => some (if value then "true" else "false")
  | .null => some ""
  | _ => none

def readTexts (path : String) : List (String × Data) → Except Error (List (String × String))
  | [] => .ok []
  | (key, value) :: rest =>
      match scalarText? value with
      | none => refuse (path ++ "." ++ key) .expectedScalar
      | some text => do return (key, text) :: (← readTexts path rest)

/-- Reads a flat map of scalars as texts; a missing map is empty. -/
def textDict (value : Data) (path : String) : Except Error (Dict String) :=
  match value with
  | .absent | .null => .ok Dict.empty
  | .map entries => do return Dict.empty.assignAll (← readTexts path entries)
  | _ => refuse path .expectedMap

end JobMatrix.Workflow
