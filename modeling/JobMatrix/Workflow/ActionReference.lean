import JobMatrix.Text.Blank
import JobMatrix.Text.Search

/-! # References to actions

A step names an action by an image, by a path in the workspace, or by a
repository with a version.
-/

namespace JobMatrix

/-- A reference to an action. -/
inductive ActionReference
  | docker (name : String)
  | directory (name : String)
  | external (name version : String)
  deriving Repr, DecidableEq

namespace ActionReference

def name : ActionReference → String
  | docker name => name
  | directory name => name
  | external name _ => name

def text : ActionReference → String
  | docker name => name
  | directory name => name
  | external name version => name ++ "@" ++ version

/-- The repository and version of a text: a name of at least two segments that
    are not empty, an at sign, and a version. -/
def external? (cs : List Char) : Option ActionReference :=
  match Text.splitAt '@' cs with
  | [name, version] =>
      let segments := Text.splitAt '/' name
      if version.isEmpty || segments.length < 2 || segments.any List.isEmpty then none
      else some (external (String.ofList name) (String.ofList version))
  | _ => none

/-- The reference that a text writes, blanks around it ignored. -/
def parse? (reference : String) : Option ActionReference :=
  let cs := Text.trimChars reference.toList
  if Text.startsWith cs "docker://".toList then some (docker (String.ofList cs))
  else if Text.startsWith cs "./".toList || Text.startsWith cs "../".toList then
    some (directory (String.ofList cs))
  else external? cs

end ActionReference

end JobMatrix
