import JobMatrix.Shell.Command
import JobMatrix.Shell.Program
import JobMatrix.Run.Pipeline
import JobMatrix.Workflow.ActionReference
import JobMatrix.Path

/-! # Running steps on a host

A host runs the script of a step as a program, from a scratch directory of its
own, and hands an action to the handler that is registered for it.
-/

namespace JobMatrix.Shell

/-- A fault of the file system. -/
inductive Fault
  | directory (message : String)
  | script (message : String)
  deriving Repr, DecidableEq

/-- The machine that runs steps. -/
structure Host where
  directory : String
  env : Dict String
  captures : Bool
  handlers : Dict ActionEnd
  fault : Option Fault
  programs : List Program

/-- A call of a handler. -/
structure Call where
  action : String
  inputs : Dict String
  step : String
  job : String
  deriving Repr, DecidableEq

/-- A program that was started. -/
structure Launch where
  command : Command
  script : String
  directory : String
  env : Dict String
  captured : Bool
  deriving Repr, DecidableEq

/-- What becomes of a step on a host. -/
structure Attempt where
  delay : Option Nat
  ending : ActionEnd
  calls : List Call
  launches : List Launch
  output : List String
  removed : List String

def scratchDirectory (number : Nat) : String :=
  s!"/tmp/matrix-runner-{number}"

def runsScript (step : PlannedStep) : Bool :=
  step.uses.isNone

def Attempt.immediate (ending : ActionEnd) (calls : List Call) : Attempt :=
  ⟨none, ending, calls, [], [], []⟩

namespace Host

def handler? (h : Host) (reference : String) : Option (String × ActionEnd) :=
  match ActionReference.parse? reference with
  | none => none
  | some action => (h.handlers.get? action.name).map fun ending => (action.name, ending)

def useAction (h : Host) (job : PlannedJob) (step : PlannedStep) (reference : String) : Attempt :=
  match h.handler? reference with
  | none =>
      .immediate
        (.completed ⟨false, some ("no handler registered for action \"" ++ reference ++ "\"")⟩) []
  | some (action, ending) => .immediate ending [⟨action, step.inputs, step.id, job.name⟩]

def directoryOf (h : Host) (step : PlannedStep) : String :=
  match step.workingDirectory with
  | none | some "" => h.directory
  | some path => Path.resolve h.directory path

/-- The program that runs the script of a step, unless its shell has no
    command. -/
def launch (h : Host) (number : Nat) (job : PlannedJob) (step : PlannedStep) :
    Except String Launch := do
  let command ← command (step.shell.or job.shell) (scratchDirectory number ++ "/script")
  return {
    command
    script := step.run.getD ""
    directory := h.directoryOf step
    env := (h.env.merge job.env).merge step.env
    captured := h.captures }

def runScript (h : Host) (number : Nat) (job : PlannedJob) (step : PlannedStep) : Attempt :=
  let directory := scratchDirectory number
  match h.fault with
  | some (.directory message) => .immediate (.failed message) []
  | some (.script message) => ⟨none, .failed message, [], [], [], [directory]⟩
  | none =>
      match h.launch number job step with
      | .error message => ⟨none, .failed message, [], [], [], [directory]⟩
      | .ok launch =>
          let program := Program.pick h.programs (step.run.getD "")
          { delay := some program.delay
            ending := .completed program.result
            calls := []
            launches := [launch]
            output := if h.captures then program.chunks else []
            removed := [directory] }

/-- Runs a step; a script uses the scratch directory with a number. -/
def attempt (h : Host) (number : Nat) (job : PlannedJob) (step : PlannedStep) : Attempt :=
  match step.uses with
  | some reference => h.useAction job step reference
  | none => h.runScript number job step

def behaviour (h : Host) (r : Running) (step : PlannedStep) : Run.Behaviour :=
  let a := h.attempt 1 r.job step
  ⟨a.delay, a.ending, false, a.output⟩

def world (h : Host) : Run.World :=
  ⟨2, h.behaviour, false, none⟩

/-- The programs that a run has started, in order; scratch directories are
    numbered from `number` on. -/
def launches (h : Host) (number : Nat) : List Run.Event → List Launch
  | [] => []
  | event :: rest =>
      match event.what with
      | .actionStart job step _ =>
          if runsScript step then
            (h.attempt number job step).launches ++ h.launches (number + 1) rest
          else h.launches number rest
      | _ => h.launches number rest

end Host

end JobMatrix.Shell
