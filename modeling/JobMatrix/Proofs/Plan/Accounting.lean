import JobMatrix.Proofs.Matrix.Resolution
import JobMatrix.Proofs.Plan.Planning
import JobMatrix.Proofs.Run.Settlement
import JobMatrix.Proofs.Run.Verdict
import Mathlib

/-! # From the matrix to the result

A combination passes through the matrix, the plan and the run.  On its way it
keeps its index: in the result it is found once, among the outcomes or among the
combinations that were not planned.
-/

namespace JobMatrix

/-- The outcomes of a run, in any order of its moves, are those of its jobs in
    their order. -/
theorem Run.Reports.identity {w : Run.World} {jobs : List PlannedJob} {limit : Option Number}
    {failFast : Bool} {c : Run.Cancellation} {report : Run.Report (List JobOutcome)}
    (h : Run.Reports w jobs limit failFast c report) :
    report.result.map (fun o => (o.index, o.name)) = jobs.map fun job => (job.index, job.name) := by
  obtain ⟨p, reached, ended, ok, rfl⟩ := h
  have length := Run.Pool.length_outcomesInOrder reached ok ended
  apply List.ext_getElem?
  intro i
  rw [List.getElem?_map, List.getElem?_map]
  cases found : jobs[i]? with
  | none =>
      have outside := List.getElem?_eq_none_iff.mp found
      rw [← length] at outside
      rw [List.getElem?_eq_none outside]
      rfl
  | some job =>
      obtain ⟨o, present, ⟨rfl, -⟩ | ⟨k, rfl, -⟩⟩ := Run.refused_or_alone reached ok ended found
      · rw [present]
        rfl
      · rw [present]
        rfl

/-- Jobs report nothing but expressions that cannot be evaluated. -/
theorem PlannedJob.kind_of_mem_runAlone {job : PlannedJob} {place : Nat}
    {act : Running → PlannedStep → ActionEnd} {aborted : Nat → Bool} {d : Diagnostic}
    (member : d ∈ (job.runAlone place act aborted).diagnostics) :
    d.kind = .conditionEvaluationError := by
  obtain ⟨-, -, -, diagnostics⟩ :=
    JobState.settles_runSteps place job act aborted 0 (JobState.start job) job.steps
  have listed : d ∈ ((JobState.start job).turns place job act aborted 0 job.steps).filterMap
      (JobState.complaint? job) := by
    have all : d ∈ ((JobState.start job).runSteps place job act aborted 0 job.steps).diagnostics :=
      member
    rw [diagnostics] at all
    exact all
  obtain ⟨found, -, complaint⟩ := List.mem_filterMap.mp listed
  obtain ⟨fault, -, rfl⟩ := Option.map_eq_some_iff.mp complaint
  rfl

theorem Run.Reports.kind {w : Run.World} {jobs : List PlannedJob} {limit : Option Number}
    {failFast : Bool} {c : Run.Cancellation} {report : Run.Report (List JobOutcome)}
    (h : Run.Reports w jobs limit failFast c report) {o : JobOutcome} (member : o ∈ report.result)
    {d : Diagnostic} (reported : d ∈ o.diagnostics) : d.kind = .conditionEvaluationError := by
  obtain ⟨p, reached, ended, ok, rfl⟩ := h
  obtain ⟨i, present⟩ := List.mem_iff_getElem?.mp member
  have inside : i < jobs.length := by
    rw [← Run.Pool.length_outcomesInOrder reached ok ended]
    exact (List.getElem?_eq_some_iff.mp present).1
  obtain ⟨o', present', ⟨rfl, -⟩ | ⟨k, rfl, -⟩⟩ :=
    Run.refused_or_alone reached ok ended (List.getElem?_eq_getElem inside)
  · rw [present] at present'
    cases present'
    cases reported
  · rw [present] at present'
    cases present'
    exact PlannedJob.kind_of_mem_runAlone reported

namespace Pipeline

/-- A result accounts for every combination of its pipeline. -/
structure Accounts (p : Pipeline) (plan : Plan) (r : PipelineResult) : Prop where
  once : (r.jobs.map (·.index) ++ r.unplannable.map (·.index)).Perm
    (List.range p.strategy.resolve.length)
  jobs : (r.jobs.map (·.index)).Pairwise (· < ·)
  unplannable : (r.unplannable.map (·.index)).Pairwise (· < ·)
  outcomes : r.jobs.map (fun o => (o.index, o.name)) =
    plan.jobs.map fun job => (job.index, job.name)
  diagnostics : plan.diagnostics =
    r.unplannable.map fun job => ⟨.unplannableJob, job.reason, some job.name, none⟩
  reported : r.diagnostics.filter (·.kind = .unplannableJob) = plan.diagnostics

theorem map_index_resolve (s : Matrix.Strategy) :
    s.resolve.map (·.index) = List.range s.resolve.length :=
  Matrix.map_index_numbered _

theorem accounts_of_reports {p : Pipeline} {o : Overrides} {w : Run.World} {limit : Option Number}
    {failFast : Bool} {c : Run.Cancellation} {report : Run.Report (List JobOutcome)}
    (h : Run.Reports w (Plan.ofPipeline p o.runners).jobs limit failFast c report) :
    p.Accounts (Plan.ofPipeline p o.runners)
      (p.result (Plan.ofPipeline p o.runners) report.result) := by
  obtain ⟨once, jobs, unplannable⟩ := Plan.places_ofResolved p o.runners p.strategy.resolve
  rw [map_index_resolve] at once jobs unplannable
  have ascending : (List.range p.strategy.resolve.length).Pairwise (· < ·) :=
    List.pairwise_lt_range
  have same : report.result.map (·.index) = (Plan.ofPipeline p o.runners).jobs.map (·.index) := by
    have indices := congrArg (List.map Prod.fst) h.identity
    rwa [List.map_map, List.map_map] at indices
  refine ⟨?_, ?_, ascending.sublist unplannable, h.identity, rfl, ?_⟩
  · rw [show (p.result _ report.result).jobs = report.result from rfl, same]
    exact once
  · rw [show (p.result _ report.result).jobs = report.result from rfl, same]
    exact ascending.sublist jobs
  · have fromMatrix : (p.strategy.unresolvable.map (·.toDiagnostic)).filter
        (·.kind = .unplannableJob) = [] := by
      simp [List.filter_eq_nil_iff, Matrix.Unresolvable.toDiagnostic]
    have fromPlan : (Plan.ofPipeline p o.runners).diagnostics.filter (·.kind = .unplannableJob) =
        (Plan.ofPipeline p o.runners).diagnostics := by
      rw [List.filter_eq_self]
      intro d member
      obtain ⟨job, -, rfl⟩ := List.mem_map.mp member
      rfl
    have fromJobs : (report.result.flatMap (·.diagnostics)).filter (·.kind = .unplannableJob) =
        [] := by
      rw [List.filter_eq_nil_iff]
      intro d member
      obtain ⟨outcome, among, reported⟩ := List.mem_flatMap.mp member
      simp [h.kind among reported]
    rw [result, List.filter_append, List.filter_append, fromMatrix, fromPlan, fromJobs,
      List.nil_append, List.append_nil]

/-- **No combination is lost or found twice.**  A pipeline gives a result unless
    an observer fails.  In every result, whatever the order of the moves of its
    run, each index of a resolved combination is found once, and the outcomes
    and the combinations that were not planned each stand in the order of their
    indices, the latter with one diagnostic each.  How a combination is planned
    does not depend on the others: what is planned is bound to the platform of
    its label and has the steps of the pipeline as they were declared. -/
theorem run_accounts (p : Pipeline) (w : Run.World) (o : Overrides) (c : Run.Cancellation) :
    (w.observer = none → ∃ report, p.run w o c = .ok report) ∧
    (∀ report, p.run w o c = .ok report →
      p.Accounts (Plan.ofPipeline p o.runners) report.result) ∧
    (∀ report, Run.Reports w (Plan.ofPipeline p o.runners).jobs (p.limit o)
        (o.failFast.getD p.strategy.failFast) c report →
      p.Accounts (Plan.ofPipeline p o.runners)
        (p.result (Plan.ofPipeline p o.runners) report.result)) ∧
    (∀ xs ys, Plan.ofResolved p o.runners (xs ++ ys) =
      ⟨(Plan.ofResolved p o.runners xs).jobs ++ (Plan.ofResolved p o.runners ys).jobs,
        (Plan.ofResolved p o.runners xs).unplannable ++
          (Plan.ofResolved p o.runners ys).unplannable,
        (Plan.ofResolved p o.runners xs).diagnostics ++
          (Plan.ofResolved p o.runners ys).diagnostics⟩) ∧
    (∀ job ∈ (Plan.ofPipeline p o.runners).jobs,
      ∃ r ∈ p.strategy.resolve, Plan.Binds p o.runners r job) ∧
    ∀ job ∈ (Plan.ofPipeline p o.runners).unplannable, ∃ r ∈ p.strategy.resolve, ∃ cause,
      Plan.planJob p o.runners r = .error cause ∧ job = Plan.refused p r cause := by
  refine ⟨fun quiet => ?_, fun report ran => ?_, fun report => accounts_of_reports,
    Plan.ofResolved_append p o.runners, fun job => Plan.binds_of_mem_jobs p o.runners,
    fun job => Plan.refused_of_mem_unplannable p o.runners⟩
  · obtain ⟨report, ran⟩ : ∃ report, Run.runJobs w (Plan.ofPipeline p o.runners).jobs
        (p.limit o) (o.failFast.getD p.strategy.failFast) c = .ok report :=
      Run.runJobs_eq_ok quiet
    refine ⟨⟨report.log, p.result (Plan.ofPipeline p o.runners) report.result⟩, ?_⟩
    simp only [run, ran]
    rfl
  · obtain ⟨outcomes, reports, rfl⟩ := reports_of_run ran
    exact accounts_of_reports reports

/-- A pipeline of two steps, whose matrix names a runner that is not known. -/
def onTwoRunners : Pipeline where
  id := "lint"
  name := "lint"
  runsOn := "$\x7b\x7b matrix.os \x7d\x7d"
  env := Dict.empty
  strategy := {
    Matrix.Strategy.default with dimensions := [⟨"os", [.text "ubuntu-latest", .text "beos"]⟩] }
  steps :=
    let make (id name : String) (tolerant : Bool) : DeclaredStep :=
      { id, name, platforms := none, inputs := Dict.empty, env := Dict.empty, condition := none,
        run := some "make", uses := none, shell := none, workingDirectory := none,
        tolerance := .always tolerant }
    [make "lint" "Lint on $\x7b\x7b matrix.os \x7d\x7d" true, make "test" "Test" false]
  shell := none

def onUbuntu : Matrix.Resolved :=
  ⟨0, Dict.ofList [("os", .text "ubuntu-latest")], false⟩

theorem planJob_onUbuntu : ∃ job, Plan.planJob onTwoRunners Dict.empty onUbuntu = .ok job ∧
    job.steps.map (fun step => (step.name, step.policy)) =
      [("Lint on ubuntu-latest", .tolerant), ("Test", .fatal)] := by
  let context := JobContext.planning onUbuntu.matrix Dict.empty (.own .linux)
  have collected : Expr.collectMatrixKeys onTwoRunners.runsOn = .ok ["os"] := by cbv
  have label : Expr.interpolate onTwoRunners.runsOn
      (JobContext.start onUbuntu.matrix Dict.empty none).toContext = .ok "ubuntu-latest" := by cbv
  have found : RunnerTable.platform? Dict.empty (Text.trim "ubuntu-latest") =
      some (.own .linux) := by
    decide +kernel
  have lint : Expr.interpolate "Lint on $\x7b\x7b matrix.os \x7d\x7d"
      (context.toContext.withEnv Dict.empty) = .ok "Lint on ubuntu-latest" := by cbv
  have test : Expr.interpolate "Test" (context.toContext.withEnv Dict.empty) = .ok "Test" := by cbv
  obtain ⟨steps, planned, names⟩ : ∃ steps, Plan.planSteps context onTwoRunners.steps = .ok steps ∧
      steps.map (fun step => (step.name, step.policy)) =
        [("Lint on ubuntu-latest", .tolerant), ("Test", .fatal)] := by
    simp only [onTwoRunners, Plan.planSteps, Plan.planStep, lint, test]
    exact ⟨_, rfl, rfl⟩
  exact ⟨_, Plan.planJob_eq_ok_iff.mpr ⟨_, _, _, Dict.empty, steps, collected, rfl, label, found,
    rfl, planned, rfl⟩, names⟩

theorem run_accounts_dry :
    ∃ report, onTwoRunners.run (.dry false none) ⟨Dict.empty, none, none⟩ .never = .ok report ∧
      onTwoRunners.Accounts (Plan.ofPipeline onTwoRunners Dict.empty) report.result ∧
      ∃ job ∈ (Plan.ofPipeline onTwoRunners Dict.empty).jobs,
        (∃ r ∈ onTwoRunners.strategy.resolve, Plan.Binds onTwoRunners Dict.empty r job) ∧
        job.steps.map (fun step => (step.name, step.policy)) =
          [("Lint on ubuntu-latest", .tolerant), ("Test", .fatal)] := by
  obtain ⟨runs, accounts, -, -, binds, -⟩ :=
    onTwoRunners.run_accounts (.dry false none) ⟨Dict.empty, none, none⟩ .never
  obtain ⟨report, ran⟩ := runs rfl
  obtain ⟨job, planned, names⟩ := planJob_onUbuntu
  have resolved : onTwoRunners.strategy.resolve =
      [onUbuntu, ⟨1, Dict.ofList [("os", .text "beos")], false⟩] := rfl
  have among : onUbuntu ∈ onTwoRunners.strategy.resolve := resolved ▸ List.mem_cons_self
  have member := Plan.mem_jobs_of_planJob onTwoRunners Dict.empty among planned
  exact ⟨report, ran, accounts report ran, job, member, binds job member, names⟩

end Pipeline

end JobMatrix
