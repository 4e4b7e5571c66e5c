import JobMatrix.Workflow.Reader
import JobMatrix.Yaml.Document

/-! # Workflow files

A workflow is read from the text of a file.  A missing file, a file that is no
document, and a document that is no workflow are told apart.
-/

namespace JobMatrix.Workflow

/-- Why a workflow file cannot be used. -/
inductive FileError
  | missing (path : String)
  | unresolvedAlias (anchor : String)
  | refused (error : Error)
  deriving Repr

def FileError.message : FileError → String
  | missing path => "ENOENT: no such file or directory, open '" ++ path ++ "'"
  | unresolvedAlias anchor =>
      "Unresolved alias (the anchor must be set before the alias): " ++ anchor
  | refused error => error.message

def ofFile (path : String) (text : Option String) : Except FileError (List Pipeline) :=
  match text with
  | none => .error (.missing path)
  | some text =>
      match Yaml.read text with
      | .error .malformed => .error (.refused ⟨none, .malformedFile path⟩)
      | .error (.unresolvedAlias anchor) => .error (.unresolvedAlias anchor)
      | .ok document => (read document).mapError .refused

end JobMatrix.Workflow
