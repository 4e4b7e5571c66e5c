import JobMatrix.Console.Basic
import JobMatrix.Console.StepLine
import JobMatrix.Run.Pipeline

/-! # The report of a pipeline

A report names each job with the lines of its steps, then the combinations
that were not planned, and counts them all.  A verbose report adds the
diagnostics.
-/

namespace JobMatrix

open JobMatrix.Console (Color Line)

def OutcomeStatus.icon : OutcomeStatus → String
  | succeeded => Color.green.paint "✓"
  | cancelled => Color.gray.paint "⊘"
  | failed => Color.brightRed.paint "✗"

def JobOutcome.lines (o : JobOutcome) : List Line :=
  Line.info (o.status.icon ++ " " ++ o.name)
    :: o.steps.map (fun step => Line.info ("   " ++ step.line))
    ++ (o.stoppedAt.map fun id =>
        Line.info (Color.brightRed.paint ("   stopped at step \"" ++ id ++ "\""))).toList

def UnplannableJob.text (j : UnplannableJob) : String :=
  Color.yellow.paint "⚠" ++ " " ++ j.name ++ " "
    ++ Color.yellow.paint ("(not planned: " ++ j.reason ++ ")")

/-- The place that a diagnostic is about: a job, a step of it, or none. -/
def Diagnostic.scope (d : Diagnostic) : String :=
  " › ".intercalate ([d.job, d.step].filterMap id |>.filter (· ≠ ""))

def Diagnostic.line (d : Diagnostic) : Line :=
  let scope := if d.scope = "" then "" else d.scope ++ ": "
  Line.info (Color.gray.paint ("   • [" ++ d.kind.name ++ "] " ++ scope ++ d.message))

namespace PipelineResult

/-- How many jobs have come to a final state. -/
def count (r : PipelineResult) (status : OutcomeStatus) : Nat :=
  r.jobs.countP (·.status = status)

def summary (r : PipelineResult) : String :=
  s!"{r.count .succeeded} succeeded, {r.count .failed} failed, "
    ++ s!"{r.count .cancelled} cancelled, {r.unplannable.length} not planned"

/-- The last line of a report without diagnostics. -/
def summaryLine (r : PipelineResult) : Line :=
  Line.info <|
    if r.success then Color.green.paint ("\n✨ " ++ r.summary ++ "\n")
    else Color.brightRed.paint ("\n💥 " ++ r.summary ++ "\n")

def diagnosticLines (r : PipelineResult) : List Line :=
  if r.diagnostics.isEmpty then []
  else Line.info (Color.gray.paint "Diagnostics:") :: r.diagnostics.map Diagnostic.line

def report (r : PipelineResult) (title : String) (verbose : Bool) : List Line :=
  [Line.info (Color.cyan.paint ("\n" ++ title))]
    ++ r.jobs.flatMap JobOutcome.lines
    ++ r.unplannable.map (fun job => Line.info job.text)
    ++ [r.summaryLine]
    ++ if verbose then r.diagnosticLines else []

end PipelineResult

end JobMatrix
