import Mathlib.Data.List.Forall2
import JobMatrix.Proofs.Run.Turn

/-! # What a plan binds

A planned job keeps the values of its combination and the steps of its pipeline;
a combination that cannot be planned is put aside with its reason.  Each is
looked at by itself, so a plan is made of the plans of its parts.
-/

namespace JobMatrix

/-- The context in which a job is planned: that in which it starts, but that the
    name of an operating system is missing where it is not known. -/
def JobContext.planning (matrix : Matrix.Combination) (env : Dict String)
    (host : HostPlatform) : JobContext :=
  { JobContext.start matrix env none with runnerOs := host.osName? }

theorem JobContext.planning_own (matrix : Matrix.Combination) (env : Dict String) (p : Platform) :
    planning matrix env (.own p) = start matrix env (some p.osName) :=
  rfl

namespace Plan

def AsDeclared (declared : DeclaredStep) (planned : PlannedStep) : Prop :=
  planned.toStep = { declared.toStep with name := planned.name }

/-- A job is what a pipeline plans for a resolved combination. -/
structure Binds (p : Pipeline) (runners : RunnerTable) (r : Matrix.Resolved)
    (job : PlannedJob) : Prop where
  index : job.index = r.index
  name : job.name = jobName p.name r.matrix
  matrix : job.matrix = r.matrix
  platform : runners.platform? job.runsOn = some job.platform
  runnerOs : job.runnerOs = job.platform.osName?
  steps : List.Forall₂ AsDeclared p.steps job.steps

theorem asDeclared_of_planStep {context : JobContext} {declared : DeclaredStep}
    {planned : PlannedStep} (h : planStep context declared = .ok planned) :
    AsDeclared declared planned := by
  obtain ⟨policy, -, h⟩ := exists_of_bind_eq_ok h
  obtain ⟨name, -, h⟩ := exists_of_bind_eq_ok h
  cases h
  rfl

theorem interpolate_of_planStep {context : JobContext} {declared : DeclaredStep}
    {planned : PlannedStep} (h : planStep context declared = .ok planned) :
    Expr.interpolate declared.name (context.toContext.withEnv declared.env) = .ok planned.name := by
  obtain ⟨policy, -, h⟩ := exists_of_bind_eq_ok h
  obtain ⟨name, found, h⟩ := exists_of_bind_eq_ok h
  cases h
  exact found

theorem forall₂_of_planSteps {context : JobContext} {declared : List DeclaredStep}
    {planned : List PlannedStep} (h : planSteps context declared = .ok planned) :
    List.Forall₂ (fun d s => planStep context d = .ok s) declared planned := by
  induction declared generalizing planned with
  | nil =>
      cases h
      exact .nil
  | cons step rest ih =>
      obtain ⟨first, isFirst, h⟩ := exists_of_bind_eq_ok h
      obtain ⟨others, areOthers, h⟩ := exists_of_bind_eq_ok h
      cases h
      exact .cons isFirst (ih areOthers)

/-- A combination is planned if the label finds its keys, is known, and the
    templates of the environment and of the steps can be evaluated. -/
theorem planJob_eq_ok_iff {p : Pipeline} {runners : RunnerTable} {r : Matrix.Resolved}
    {job : PlannedJob} : planJob p runners r = .ok job ↔ ∃ keys text platform env steps,
      Expr.collectMatrixKeys p.runsOn = .ok keys ∧
      (keys.filter fun key => !r.matrix.contains key) = [] ∧
      Expr.interpolate p.runsOn (JobContext.start r.matrix Dict.empty none).toContext = .ok text ∧
      runners.platform? (Text.trim text) = some platform ∧
      Expr.interpolateDict p.env (JobContext.planning r.matrix Dict.empty platform).toContext =
        .ok env ∧
      planSteps (JobContext.planning r.matrix env platform) p.steps = .ok steps ∧
      job = ⟨r.index, jobName p.name r.matrix, r.matrix, env, steps, platform, platform.osName?,
        Text.trim text, p.shell⟩ := by
  constructor
  · intro h
    obtain ⟨keys, collected, h⟩ := exists_of_bind_eq_ok h
    dsimp only at h
    split at h
    · cases h
    · next complete =>
        obtain ⟨text, label, h⟩ := exists_of_bind_eq_ok h
        split at h
        · next platform found =>
            obtain ⟨env, filled, h⟩ := exists_of_bind_eq_ok h
            obtain ⟨steps, planned, h⟩ := exists_of_bind_eq_ok h
            cases h
            exact ⟨keys, text, platform, env, steps, eq_ok_of_mapError collected,
              by simpa using complete, eq_ok_of_mapError label, found, eq_ok_of_mapError filled,
              eq_ok_of_mapError planned, rfl⟩
        · cases h
  · rintro ⟨keys, text, platform, env, steps, collected, complete, label, found, filled, planned,
      rfl⟩
    rw [planJob, collected]
    refine (if_neg (by simp [complete])).trans ?_
    simp only [label, ofExpr, Except.mapError, bind, Except.bind, found]
    -- The context of the job comes to be in two steps, the runner first.
    have filled : Expr.interpolateDict p.env ({ JobContext.start r.matrix Dict.empty none with
        runnerOs := platform.osName? } : JobContext).toContext = .ok env := filled
    simp only [filled]
    have planned : planSteps { JobContext.start r.matrix Dict.empty none with
        runnerOs := platform.osName?, env } p.steps = .ok steps := planned
    simp only [planned]
    rfl

theorem binds_of_planJob {p : Pipeline} {runners : RunnerTable} {r : Matrix.Resolved}
    {job : PlannedJob} (h : planJob p runners r = .ok job) : Binds p runners r job := by
  obtain ⟨-, text, platform, env, steps, -, -, -, found, -, planned, rfl⟩ := planJob_eq_ok_iff.mp h
  exact ⟨rfl, rfl, rfl, found, rfl,
    (forall₂_of_planSteps planned).imp fun _ _ => asDeclared_of_planStep⟩

theorem planStep_of_planJob {p : Pipeline} {runners : RunnerTable} {r : Matrix.Resolved}
    {job : PlannedJob} (h : planJob p runners r = .ok job) {declared : DeclaredStep}
    {step : PlannedStep} (beside : (declared, step) ∈ p.steps.zip job.steps) :
    planStep (JobContext.planning job.matrix job.env job.platform) declared = .ok step := by
  obtain ⟨-, text, platform, env, steps, -, -, -, found, -, planned, rfl⟩ := planJob_eq_ok_iff.mp h
  exact (List.forall₂_iff_zip.mp (forall₂_of_planSteps planned)).2 beside

/-! ## Plans of several combinations -/

variable (p : Pipeline) (runners : RunnerTable)

theorem ofResolved_append (xs ys : List Matrix.Resolved) :
    ofResolved p runners (xs ++ ys) =
      ⟨(ofResolved p runners xs).jobs ++ (ofResolved p runners ys).jobs,
        (ofResolved p runners xs).unplannable ++ (ofResolved p runners ys).unplannable,
        (ofResolved p runners xs).diagnostics ++ (ofResolved p runners ys).diagnostics⟩ := by
  simp only [ofResolved, planEach, List.map_append, List.filterMap_append]

theorem ofResolved_singleton (r : Matrix.Resolved) :
    (∃ job, Binds p runners r job ∧ ofResolved p runners [r] = ⟨[job], [], []⟩) ∨
      ∃ cause, planJob p runners r = .error cause ∧
        ofResolved p runners [r] = ⟨[], [refused p r cause], [diagnostic (refused p r cause)]⟩ := by
  cases planned : planJob p runners r with
  | ok job =>
      refine .inl ⟨job, binds_of_planJob planned, ?_⟩
      simp [ofResolved, planEach, planned, Except.mapError]
  | error cause =>
      refine .inr ⟨cause, rfl, ?_⟩
      simp [ofResolved, planEach, planned, Except.mapError]

/-- A plan puts every combination on one of its lists, and keeps their order. -/
theorem places_ofResolved (resolved : List Matrix.Resolved) :
    ((ofResolved p runners resolved).jobs.map (·.index) ++
      (ofResolved p runners resolved).unplannable.map (·.index)).Perm (resolved.map (·.index)) ∧
    ((ofResolved p runners resolved).jobs.map (·.index)).Sublist (resolved.map (·.index)) ∧
    ((ofResolved p runners resolved).unplannable.map (·.index)).Sublist
      (resolved.map (·.index)) := by
  induction resolved with
  | nil => exact ⟨.nil, .slnil, .slnil⟩
  | cons r rest ih =>
      obtain ⟨once, jobs, unplannable⟩ := ih
      rw [← List.singleton_append, ofResolved_append]
      rcases ofResolved_singleton p runners r with ⟨job, binds, one⟩ | ⟨cause, -, one⟩
      · simp only [one, List.map_cons, List.nil_append, List.cons_append, binds.index]
        exact ⟨once.cons _, jobs.cons_cons _, unplannable.cons _⟩
      · simp only [one, List.singleton_append, List.map_cons, List.nil_append, refused]
        exact ⟨List.perm_middle.trans (once.cons _), jobs.cons _, unplannable.cons_cons _⟩

theorem binds_of_mem_jobs {resolved : List Matrix.Resolved} {job : PlannedJob}
    (member : job ∈ (ofResolved p runners resolved).jobs) :
    ∃ r ∈ resolved, Binds p runners r job := by
  simp only [ofResolved, planEach, List.mem_filterMap, List.mem_map] at member
  obtain ⟨each, ⟨r, among, rfl⟩, found⟩ := member
  refine ⟨r, among, ?_⟩
  cases planned : planJob p runners r with
  | ok job' =>
      rw [planned] at found
      cases found
      exact binds_of_planJob planned
  | error cause =>
      rw [planned] at found
      cases found

theorem mem_jobs_of_planJob {resolved : List Matrix.Resolved} {r : Matrix.Resolved}
    {job : PlannedJob} (among : r ∈ resolved) (planned : planJob p runners r = .ok job) :
    job ∈ (ofResolved p runners resolved).jobs := by
  simp only [ofResolved, planEach, List.mem_filterMap, List.mem_map]
  exact ⟨_, ⟨r, among, rfl⟩, by rw [planned]; rfl⟩

theorem refused_of_mem_unplannable {resolved : List Matrix.Resolved} {job : UnplannableJob}
    (member : job ∈ (ofResolved p runners resolved).unplannable) :
    ∃ r ∈ resolved, ∃ cause, planJob p runners r = .error cause ∧ job = refused p r cause := by
  simp only [ofResolved, planEach, List.mem_filterMap, List.mem_map] at member
  obtain ⟨each, ⟨r, among, rfl⟩, found⟩ := member
  refine ⟨r, among, ?_⟩
  cases planned : planJob p runners r with
  | ok job' =>
      rw [planned] at found
      cases found
  | error cause =>
      rw [planned] at found
      cases found
      exact ⟨cause, rfl, rfl⟩

end Plan

end JobMatrix
