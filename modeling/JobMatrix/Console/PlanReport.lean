import JobMatrix.Console.Report

/-! # The report of a plan

A plan is reported without being run: each job with its runner and how many of
its steps are for its platform, then what could not be planned.
-/

namespace JobMatrix

open JobMatrix.Console (Color Line)

def PlannedJob.runnable (j : PlannedJob) : Nat :=
  j.steps.countP fun step => step.platforms.all (j.platform.isAmong ·)

def PlannedJob.line (j : PlannedJob) : Line :=
  Line.info ("   • " ++ j.name ++ " "
    ++ Color.gray.paint ("on " ++ j.runsOn ++ s!", {j.runnable}/{j.steps.length} steps"))

def Plan.report (p : Plan) (title : String) : List Line :=
  let count := p.jobs.length
  let noun := if count = 1 then "job" else "jobs"
  Line.info (Color.cyan.paint
      ("\n" ++ title ++ ": " ++ Color.yellow.paint (toString count) ++ " " ++ noun))
    :: p.jobs.map PlannedJob.line
    ++ p.unplannable.map fun job => Line.info ("   " ++ job.text)

end JobMatrix
