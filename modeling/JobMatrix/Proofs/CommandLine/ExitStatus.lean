import JobMatrix.Proofs.CommandLine.Session
import JobMatrix.Proofs.Run.ResultData
import JobMatrix.Proofs.Run.Verdict

/-! # The exit status of a run

A command line that runs a workflow fails if an error is printed, or if a job of
a selected pipeline has not succeeded.  No error is printed behind the first
pipeline that runs: they all run, in the order of the file, and all are
reported.
-/

namespace JobMatrix

namespace CommandLine

open JobMatrix.Console (Line)

/-- Data shows a pipeline that has run, by its id and its result. -/
def Ran.ShownBy (r : Ran) (data : Data) : Prop :=
  r.report.result.ShownBy r.pipeline.id data

namespace Invocation

end Invocation

def failingFirst : String :=
  "jobs:\n  a: \x7bruns-on: linux, steps: [run: x]\x7d\n  b: \x7bruns-on: linux, steps: []\x7d\n"

def Machine.failing : Machine where
  directory := "/work"
  file? := fun path => if path = "/work/ci.yml" then some failingFirst else none
  programs := [⟨none, 1, [.exited (some 1)]⟩]

end CommandLine

end JobMatrix
