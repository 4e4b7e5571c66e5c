import JobMatrix.CommandLine.Invocation
import JobMatrix.Console.PlanReport
import JobMatrix.Run.ResultData
import JobMatrix.Shell.Host
import JobMatrix.Workflow.File

/-! # Sessions

A session carries out an invocation on a machine.  It writes lines to the
console, up to the first error, and starts programs.
-/

namespace JobMatrix.CommandLine

open JobMatrix.Console (Color Line)

/-- The machine of a session. -/
structure Machine where
  directory : String
  file? : String → Option String
  programs : List Shell.Program

/-- Why a session ends early. -/
inductive SessionError
  /-- No workflow file is named. -/
  | noFile
  /-- The workflow file is given as something that is no text, with a kind and
      a text of its own. -/
  | noPath (kind shown : String)
  /-- The workflow file has another format. -/
  | notYaml (path : String)
  /-- The workflow file cannot be used. -/
  | unusable (error : Workflow.FileError)
  /-- No pipeline is selected. -/
  | nothingSelected
  | setting (error : SettingError)
  /-- An observer of the run has failed. -/
  | observer (message : String)
  deriving Repr

def SessionError.message : SessionError → String
  | noFile => "Missing workflow file (e.g., .github/workflows/ci.yml)"
  | noPath kind shown =>
      "The \"path\" argument must be of type string. Received type " ++ kind ++ " (" ++ shown ++ ")"
  | notYaml path => "Not a YAML file: " ++ path
  | unusable error => error.message
  | nothingSelected => "No jobs match the --job filter"
  | setting error => error.message
  | observer message => message

/-- A part of a session: it adds lines, and has a result or an error. -/
abbrev Session := ExceptT SessionError (StateM (List Line))

namespace Session

def say (lines : List Line) : Session Unit :=
  modify (· ++ lines)

def check {ε α : Type} (cause : ε → SessionError) (r : Except ε α) : Session α :=
  liftExcept (r.mapError cause)

end Session

namespace Invocation

/-- The path of the workflow file as given; nothing that is empty or zero names
    one. -/
def path (i : Invocation) : Except SessionError String :=
  match i.file with
  | none => .error .noFile
  | some (.text path) => if path = "" then .error .noFile else .ok path
  | some (.number n) => if n.isZero then .error .noFile else .error (.noPath "number" n.toText)
  | some (.bool value) => if value then .error (.noPath "boolean" "true") else .error .noFile

def absolutePath (m : Machine) (i : Invocation) : Except SessionError String := do
  let path ← i.path
  if !Path.isYaml path then throw (.notYaml path)
  return Path.resolve m.directory path

def pipelines (m : Machine) (i : Invocation) : Session (List Pipeline) := do
  let path ← liftExcept (i.absolutePath m)
  let all ← Session.check .unusable (Workflow.ofFile path (m.file? path))
  let (selected, warnings) ← Session.check .setting ((i.setting "job").selectJobs all)
  Session.say warnings
  if selected.isEmpty then throw .nothingSelected
  return selected

def plan (m : Machine) (i : Invocation) : Session Unit := do
  let runners ← Session.check .setting (i.setting "runner").runners
  let selected ← i.pipelines m
  Session.say (selected.flatMap fun p => (Plan.ofPipeline p runners).report p.name)
  Session.say [Line.info ""]

def overrides (i : Invocation) : Except SettingError Overrides := do
  let runners ← (i.setting "runner").runners
  let maxParallel ← (i.setting "maxParallel").maxParallel
  let failFast ← (i.setting "failFast").failFast
  return ⟨runners, maxParallel, failFast⟩

def host (m : Machine) : Shell.Host :=
  ⟨m.directory, Dict.empty, true, Dict.empty, none, m.programs⟩

/-- The world of a session: in a dry one every step succeeds. -/
def world (m : Machine) (i : Invocation) : Run.World :=
  if (i.setting "dryRun").isOn then .dry false none else (host m).world

end Invocation

/-- A pipeline that has run. -/
structure Ran where
  pipeline : Pipeline
  report : Run.Report PipelineResult

namespace Ran

def all (w : Run.World) (o : Overrides) (pipelines : List Pipeline) :
    Except SessionError (List Ran) :=
  pipelines.mapM fun p => ((p.run w o .never).map (Ran.mk p ·)).mapError .observer

def log (ran : List Ran) : List Run.Event :=
  ran.flatMap (·.report.log)

def outputKey (job step : String) : String :=
  job ++ "\x00" ++ step

def written (key : String) (log : List Run.Event) : String :=
  String.join (log.flatMap fun event =>
    match event.what with
    | .actionEnd job step output => if outputKey job.name step.id = key then output else []
    | _ => [])

def outputLines (log : List Run.Event) (o : JobOutcome) (step : StepResult) : List Line :=
  let output := written (outputKey o.name step.id) log
  match step.state with
  | .failed _ =>
      if output = "" then []
      else [Line.info (Color.gray.paint ("── " ++ o.name ++ " › " ++ step.name)),
        Line.info (Text.trimEnd output)]
  | _ => []

/-- The report of a pipeline that has run; a verbose one adds what failed steps
    have written. -/
def lines (verbose : Bool) (log : List Run.Event) (r : Ran) : List Line :=
  let result := r.report.result
  result.report r.pipeline.name verbose
    ++ if verbose then result.jobs.flatMap fun o => o.steps.flatMap (outputLines log o) else []

def document (ran : List Ran) : Line :=
  Line.info ((Data.list (ran.map fun r => r.report.result.toData r.pipeline.id)).toIndentedJson "")

end Ran

namespace Invocation

def run (m : Machine) (i : Invocation) : Session (List Ran) := do
  let json := (i.setting "json").isOn
  if !json then Session.say [Line.info (Color.cyan.paint "\n🧮 Matrix Runner\n")]
  let selected ← i.pipelines m
  let overrides ← Session.check .setting i.overrides
  let ran ← liftExcept (Ran.all (i.world m) overrides selected)
  if json then Session.say [Ran.document ran]
  else Session.say (ran.flatMap (Ran.lines (i.setting "verbose").isOn (Ran.log ran)))
  return ran

def session (m : Machine) (i : Invocation) : Session (List Ran) :=
  match i.command with
  | .plan => do
      i.plan m
      return []
  | .run => i.run m

end Invocation

/-- What a session leaves. -/
structure Outcome where
  console : List Line
  launches : List Shell.Launch
  failed : Bool

def SessionError.line (e : SessionError) : Line :=
  ⟨.error, Color.brightRed.paint "\nError:" ++ " " ++ e.message⟩

def Invocation.outcome (m : Machine) (i : Invocation) : Outcome :=
  match (i.session m).run [] with
  | (.error e, lines) => ⟨lines ++ [e.line], [], true⟩
  | (.ok ran, lines) =>
      let dry := (i.setting "dryRun").isOn
      { console := lines
        launches := if dry then [] else (Invocation.host m).launches 1 (Ran.log ran)
        failed := ran.any fun r => !r.report.result.success }

/-- Carries out a command line.  Asked for help only, it does nothing. -/
def carryOut (m : Machine) (arguments : List String) : Except UsageError Outcome :=
  let i := Invocation.ofArguments arguments
  if i.asksForHelp then .ok ⟨[], [], false⟩
  else match i.fault? with
    | some e => .error e
    | none => .ok (i.outcome m)

end JobMatrix.CommandLine
