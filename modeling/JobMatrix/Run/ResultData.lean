import JobMatrix.Run.Pipeline

/-! # Results as plain data

The fields of a result have a fixed order.  A job that was cancelled before it
started has an order of its own, with its steps in front.
-/

namespace JobMatrix

def fieldData (fields : List (String × Data)) : Data :=
  .map (fields.filter fun field => !field.2.isAbsent)

def optionalData : Option String → Data
  | none => .absent
  | some s => .text s

def Diagnostic.toData (d : Diagnostic) : Data :=
  let kind := ("kind", Data.text d.kind.name)
  let message := ("message", Data.text d.message)
  let job := ("job", optionalData d.job)
  fieldData <| match d.kind with
    | .conditionEvaluationError => [kind, message, ("step", optionalData d.step), job]
    | .unplannableJob => [kind, message, job]
    | .unresolvableDimensionValue => [message, kind]

/-- The result of a step as plain data; `before` tells whether its job was
    cancelled before it started. -/
def StepResult.toData (before : Bool) (r : StepResult) : Data :=
  let policy := ("policy", Data.text r.policy.name)
  let names := [("name", Data.text r.name), ("id", Data.text r.id)]
  let status := ("status", Data.text r.state.name)
  .map <| match r.state with
    | .succeeded => policy :: names ++ [status]
    | .failed error => policy :: names ++ [("error", .text error), status]
    | .skipped reason =>
        let reason := ("skipReason", Data.text reason.name)
        if before then [reason, policy, status] ++ names else policy :: names ++ [reason, status]

/-- Whether a job was cancelled before it started: all its steps are. -/
def JobOutcome.isUnstarted (o : JobOutcome) : Bool :=
  o.status = .cancelled && o.steps.all (·.state = .skipped .cancelled)

def JobOutcome.toData (o : JobOutcome) : Data :=
  let steps := ("steps", Data.list (o.steps.map (StepResult.toData o.isUnstarted)))
  let fields := [("status", Data.text o.status.name),
    ("diagnostics", .list (o.diagnostics.map Diagnostic.toData)),
    ("index", .number (Number.ofNat o.index)), ("name", .text o.name)]
  fieldData <|
    if o.isUnstarted then steps :: fields
    else fields ++ [steps, ("stoppedAt", optionalData o.stoppedAt)]

def UnplannableJob.toData (j : UnplannableJob) : Data :=
  .map [("matrix", .map (j.matrix.entries.map fun (key, value) => (key, value.toData))),
    ("index", .number (Number.ofNat j.index)), ("reason", .text j.reason), ("name", .text j.name)]

def PipelineResult.toData (id : String) (r : PipelineResult) : Data :=
  .map [("job", .text id), ("diagnostics", .list (r.diagnostics.map Diagnostic.toData)),
    ("status", .text r.status), ("unplannable", .list (r.unplannable.map UnplannableJob.toData)),
    ("jobs", .list (r.jobs.map JobOutcome.toData))]

end JobMatrix
