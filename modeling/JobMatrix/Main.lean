import JobMatrix.CommandLine.Session

/-! # The command line

Reads the workflow file, carries out the command line, and prints what it
leaves.  It plans workflows and runs them dry; a script that has to be started
fails, because nothing is started here.
-/

namespace JobMatrix.CommandLine

def unstarted : Shell.Program :=
  ⟨none, 0, [.broke "programs cannot be started here"]⟩

def readFile? (path : String) : IO (Option String) := do
  try
    return some (← IO.FS.readFile path)
  catch _ =>
    return none

/-- Prints a line; warnings and errors are kept apart from all else. -/
def print (line : Console.Line) : IO Unit :=
  match line.level with
  | .log | .info => IO.println line.text
  | .warn | .error => IO.eprintln line.text

end JobMatrix.CommandLine

open JobMatrix JobMatrix.CommandLine

/-- Carries out a command line. -/
def main (arguments : List String) : IO UInt32 := do
  let directory := (← IO.currentDir).toString
  let bare : Machine := ⟨directory, fun _ => none, [unstarted]⟩
  let text ← match (Invocation.ofArguments arguments).absolutePath bare with
    | .ok path => pure ((← readFile? path).map fun text => (path, text))
    | .error _ => pure none
  let files := fun path =>
    text.bind fun (read, text) => if read = path then some text else none
  match carryOut { bare with file? := files } arguments with
  | .ok outcome =>
      outcome.console.forM print
      return if outcome.failed then 1 else 0
  | .error e =>
      IO.eprintln e.message
      return 1
