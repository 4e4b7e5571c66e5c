import JobMatrix.Console.Color
import JobMatrix.Run.Result

/-! # The line of a step

The result of a step is one line: an icon, the name, and why it failed or did
not run.
-/

namespace JobMatrix

open JobMatrix.Console (Color)

def SkipReason.description : SkipReason → String
  | priorFailure => "an earlier step failed"
  | conditionError => "invalid condition"
  | platform => "not for this platform"
  | condition => "condition is false"
  | cancelled => "cancelled"

def StepResult.line (r : StepResult) : String :=
  match r.state, r.policy with
  | .succeeded, _ => Color.green.paint "✓" ++ " " ++ r.name
  | .failed error, .tolerant =>
      Color.yellow.paint "!" ++ " " ++ r.name ++ " "
        ++ Color.yellow.paint ("(failed, continued: " ++ error ++ ")")
  | .failed error, .fatal =>
      Color.brightRed.paint "✗" ++ " " ++ r.name ++ " "
        ++ Color.brightRed.paint ("(" ++ error ++ ")")
  | .skipped reason, _ =>
      Color.gray.paint "-" ++ " "
        ++ Color.gray.paint (r.name ++ " (skipped: " ++ reason.description ++ ")")

end JobMatrix
