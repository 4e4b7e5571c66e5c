import JobMatrix.Proofs.CommandLine.ExitStatus
import JobMatrix.Proofs.CommandLine.Mentions
import JobMatrix.Proofs.Pattern.Literal
import JobMatrix.Proofs.Pattern.Selecting

/-! # The filter of jobs

A command line that names a job by a plain id processes only the pipelines that
its texts select as they are written: unless there is a single text, and that
one reads as a number.  It is then no text any more and counts for no pattern,
so every pipeline is processed.
-/

namespace JobMatrix

namespace CommandLine

open JobMatrix.Console (Line)

/-! ## Texts as they are written -/

def listed (texts : List String) : List String :=
  ((texts.flatMap (Text.split ',')).map Text.trim).filter (· ≠ "")

namespace Setting

end Setting

namespace Invocation

def Declares (m : Machine) (i : Invocation) (all : List Pipeline) : Prop :=
  ∃ path, i.absolutePath m = .ok path ∧ Workflow.ofFile path (m.file? path) = .ok all

end Invocation

/-- A workflow with jobs whose ids read as numbers, and one whose id does not. -/
def numberedJobs : String :=
  "jobs:\n  1: \x7bruns-on: linux, steps: []\x7d\n  2: \x7bruns-on: linux, steps: []\x7d\n" ++
  "  lint: \x7bruns-on: linux, steps: []\x7d\n"

def Machine.numbered : Machine where
  directory := "/work"
  file? := fun path => if path = "/work/ci.yml" then some numberedJobs else none
  programs := []

end CommandLine

end JobMatrix
