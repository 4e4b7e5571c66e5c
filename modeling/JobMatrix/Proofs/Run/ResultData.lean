import Mathlib.Data.List.Forall2
import JobMatrix.Run.ResultData

/-! # What the data of a result shows

The order of the fields differs from job to job, and fields without a value are
left out.  A reader who goes by the names of the fields sees all the same the
whole result: one entry for each job, step, combination and diagnostic, in their
order.
-/

namespace JobMatrix

open Data

theorem get?_fieldData {fields : List (String × Data)} {key : String} {value : Data}
    (found : Entries.get? key fields = some value) (present : value.isAbsent = false) :
    (fieldData fields).get? key = some value := by
  induction fields with
  | nil => cases found
  | cons field rest ih =>
      obtain ⟨k, v⟩ := field
      rw [Entries.get?] at found
      split at found
      · next here =>
          cases found
          simp [fieldData, Data.get?, Entries.get?, present, here]
      · next elsewhere =>
          have behind : Entries.get? key (rest.filter fun field => !field.2.isAbsent) =
              some value := ih found
          cases blank : v.isAbsent <;>
            simp [fieldData, Data.get?, Entries.get?, blank, elsewhere, behind]

/-- Data shows a diagnostic. -/
structure Diagnostic.ShownBy (d : Diagnostic) (data : Data) : Prop where
  kind : data.get? "kind" = some (.text d.kind.name)
  message : data.get? "message" = some (.text d.message)

theorem Diagnostic.shownBy_toData (d : Diagnostic) : d.ShownBy d.toData := by
  have kind : d.toData.get? "kind" = some (.text d.kind.name) := by
    unfold toData
    cases d.kind <;> exact get?_fieldData rfl rfl
  have message : d.toData.get? "message" = some (.text d.message) := by
    unfold toData
    cases d.kind <;> exact get?_fieldData rfl rfl
  exact ⟨kind, message⟩

/-- Data shows the result of a step: what it is called, how it ended, and why it
    failed or was skipped. -/
structure StepResult.ShownBy (r : StepResult) (data : Data) : Prop where
  id : data.get? "id" = some (.text r.id)
  name : data.get? "name" = some (.text r.name)
  policy : data.get? "policy" = some (.text r.policy.name)
  status : data.get? "status" = some (.text r.state.name)
  error : ∀ error, r.state = .failed error → data.get? "error" = some (.text error)
  skipReason : ∀ reason, r.state = .skipped reason →
    data.get? "skipReason" = some (.text reason.name)

theorem StepResult.shownBy_toData (before : Bool) (r : StepResult) :
    r.ShownBy (r.toData before) := by
  obtain ⟨id, name, policy, state⟩ := r
  cases state with
  | succeeded => exact ⟨rfl, rfl, rfl, rfl, nofun, nofun⟩
  | failed error =>
      refine ⟨rfl, rfl, rfl, rfl, fun e same => ?_, nofun⟩
      cases same
      rfl
  | skipped reason =>
      cases before
      all_goals
        refine ⟨rfl, rfl, rfl, rfl, nofun, fun r same => ?_⟩
        cases same
        rfl

theorem forall₂_map {α : Type} {shows : α → Data → Prop} {toData : α → Data}
    (each : ∀ x, shows x (toData x)) (xs : List α) : List.Forall₂ shows xs (xs.map toData) :=
  List.forall₂_map_right_iff.mpr (List.forall₂_same.mpr fun x _ => each x)

/-- Data shows the outcome of a job, with the result of each step. -/
structure JobOutcome.ShownBy (o : JobOutcome) (data : Data) : Prop where
  index : data.get? "index" = some (.number (Number.ofNat o.index))
  name : data.get? "name" = some (.text o.name)
  status : data.get? "status" = some (.text o.status.name)
  steps : ∃ steps, data.get? "steps" = some (.list steps) ∧
    List.Forall₂ StepResult.ShownBy o.steps steps
  diagnostics : ∃ diagnostics, data.get? "diagnostics" = some (.list diagnostics) ∧
    List.Forall₂ Diagnostic.ShownBy o.diagnostics diagnostics

theorem JobOutcome.shownBy_toData (o : JobOutcome) : o.ShownBy o.toData := by
  have steps := forall₂_map (StepResult.shownBy_toData o.isUnstarted) o.steps
  have diagnostics := forall₂_map Diagnostic.shownBy_toData o.diagnostics
  unfold toData
  dsimp only
  split
  all_goals
    exact ⟨get?_fieldData rfl rfl, get?_fieldData rfl rfl, get?_fieldData rfl rfl,
      ⟨_, get?_fieldData rfl rfl, steps⟩, _, get?_fieldData rfl rfl, diagnostics⟩

/-- Data shows a combination that was not planned. -/
structure UnplannableJob.ShownBy (j : UnplannableJob) (data : Data) : Prop where
  index : data.get? "index" = some (.number (Number.ofNat j.index))
  name : data.get? "name" = some (.text j.name)
  reason : data.get? "reason" = some (.text j.reason)

theorem UnplannableJob.shownBy_toData (j : UnplannableJob) : j.ShownBy j.toData :=
  ⟨rfl, rfl, rfl⟩

/-- Data shows the result of a pipeline with an id. -/
structure PipelineResult.ShownBy (r : PipelineResult) (id : String) (data : Data) : Prop where
  job : data.get? "job" = some (.text id)
  status : data.get? "status" = some (.text r.status)
  jobs : ∃ jobs, data.get? "jobs" = some (.list jobs) ∧
    List.Forall₂ JobOutcome.ShownBy r.jobs jobs
  unplannable : ∃ unplannable, data.get? "unplannable" = some (.list unplannable) ∧
    List.Forall₂ UnplannableJob.ShownBy r.unplannable unplannable
  diagnostics : ∃ diagnostics, data.get? "diagnostics" = some (.list diagnostics) ∧
    List.Forall₂ Diagnostic.ShownBy r.diagnostics diagnostics

theorem PipelineResult.shownBy_toData (r : PipelineResult) (id : String) :
    r.ShownBy id (r.toData id) where
  job := rfl
  status := rfl
  jobs := ⟨_, rfl, forall₂_map JobOutcome.shownBy_toData r.jobs⟩
  unplannable := ⟨_, rfl, forall₂_map UnplannableJob.shownBy_toData r.unplannable⟩
  diagnostics := ⟨_, rfl, forall₂_map Diagnostic.shownBy_toData r.diagnostics⟩

end JobMatrix
