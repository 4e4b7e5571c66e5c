import JobMatrix.Proofs.Run.Isolation
import JobMatrix.Run.Pipeline

/-! # The verdict of a run

Fail-fast cuts some jobs short and keeps others from starting, and which ones
depends on the limit, the times and the order of the moves.  Whether all jobs
succeed does not: what cancels a run from within is a job that has failed, and
the first one to fail was not cancelled, so it fails alone as well.
-/

namespace JobMatrix

namespace Run

theorem Undisturbed.of_prefix {w : World} {c : Cancellation} {log log' : List Event}
    (h : Undisturbed w c log') (before : log <+: log') : Undisturbed w c log := by
  intro listens
  obtain ⟨unaborted, silent⟩ := h listens
  exact ⟨unaborted, fun e member => silent e (before.subset member)⟩

theorem Undisturbed.deaf {w : World} {c : Cancellation} {log : List Event} {t : Nat}
    (h : Undisturbed w c (log ++ [⟨t, none, .abort⟩])) : w.listens = false := by
  by_contra listens
  have arrives : (⟨t, none, .abort⟩ : Event) ∈ log ++ [⟨t, none, .abort⟩] :=
    List.mem_append_right _ List.mem_cons_self
  exact (h (Bool.eq_true_of_not_eq_false listens)).2 _ arrives rfl

namespace Board

variable {w : World} {failFast : Bool} {c : Cancellation} {b b' : Board}

/-- A run that nobody cancels from outside is cancelled only behind a job that
    has failed. -/
def Blamed (b : Board) : Prop :=
  b.aborted = true → ∃ place o, Stage.reported place o ∈ b.stages ∧ o.status = .failed

theorem blamed_step (undisturbed : Undisturbed w c b'.log) (h : b.Blamed)
    (step : Step w failFast false b b') : b'.Blamed := by
  intro aborted
  cases step with
  | refuse | start =>
      obtain ⟨place, o, member, failed⟩ := h aborted
      exact ⟨place, o, Multiset.mem_cons_of_mem member, failed⟩
  -- The job that moves is not reported yet, so the one to blame stays.
  | settle | begin | ended | complete | close =>
      obtain ⟨place, o, member, failed⟩ := h aborted
      have before := (Multiset.mem_cons.mp member).resolve_left nofun
      exact ⟨place, o, Multiset.mem_cons_of_mem before, failed⟩
  | @report b r t =>
      rcases Bool.or_eq_true_iff.mp aborted with before | raised
      · obtain ⟨place, o, member, failed⟩ := h before
        have before := (Multiset.mem_cons.mp member).resolve_left nofun
        exact ⟨place, o, Multiset.mem_cons_of_mem before, failed⟩
      · have failed := of_decide_eq_true (Bool.and_eq_true_iff.mp raised).2
        exact ⟨r.place, _, Multiset.mem_cons_self _ _, failed⟩
  | @abort b t =>
      rcases Bool.or_eq_true_iff.mp aborted with before | listens
      · exact h before
      · exact absurd (undisturbed.deaf.symm.trans listens) Bool.false_ne_true
  | balk fails | lose fails => cases fails

theorem blamed_steps (first : b.aborted = false) (undisturbed : Undisturbed w c b'.log)
    (steps : Steps w failFast false b b') : b'.Blamed := by
  induction steps with
  | refl => exact fun aborted => absurd (first.symm.trans aborted) Bool.false_ne_true
  | tail _ step ih =>
      exact blamed_step undisturbed (ih (undisturbed.of_prefix (log_step step))) step

/-- If every job succeeds alone, a run that nobody cancels from outside is
    never cancelled: the first job to fail would fail alone. -/
theorem unaborted_step {jobAt : Nat → Option PlannedJob}
    (succeeds : ∀ i job, jobAt i = some job →
      (job.runAlone i w.endings fun _ => false).status = .succeeded)
    (told : b.Told w jobAt) (undisturbed : Undisturbed w c b'.log) (h : b.aborted = false)
    (step : Step w failFast false b b') : b'.aborted = false := by
  cases step with
  | refuse | start | settle | begin | ended | complete | close => exact h
  | @report b r t =>
      obtain ⟨-, -, job, found, story⟩ := told.of_put
      have unaborted : b.aborted = false := h
      rw [unaborted] at story
      -- Nothing has cancelled the job so far, so it ends as it does alone.
      have alone := (Story.reported story).along_of_unaborted.outcome
      have succeeded : (r.state.outcome r.job).status = .succeeded := by
        rw [alone]
        exact succeeds r.place job found
      have harmless : (b.aborted || (failFast && (r.state.outcome r.job).status = .failed)) =
          false := by
        simp [unaborted, succeeded]
      exact harmless
  | @abort b t =>
      have unaborted : b.aborted = false := h
      exact Bool.or_eq_false_iff.mpr ⟨unaborted, undisturbed.deaf⟩
  | balk fails | lose fails => cases fails

theorem unaborted_steps {jobAt : Nat → Option PlannedJob}
    (succeeds : ∀ i job, jobAt i = some job →
      (job.runAlone i w.endings fun _ => false).status = .succeeded)
    (told : b.Told w jobAt) (undisturbed : Undisturbed w c b'.log) (h : b.aborted = false)
    (steps : Steps w failFast false b b') : b'.aborted = false := by
  induction steps with
  | refl => exact h
  | tail before step ih =>
      exact unaborted_step succeeds (told.steps before) undisturbed
        (ih (undisturbed.of_prefix (log_step step))) step

end Board

theorem unaborted_at_start {w : World} {jobs : List PlannedJob} {limit : Option Number}
    {failFast : Bool} {c : Cancellation} {log : List Event} (undisturbed : Undisturbed w c log) :
    (Pool.start w jobs limit failFast c).board.aborted = false := by
  cases listens : w.listens with
  | false => exact (congrArg _ listens).trans (Bool.and_false _)
  | true => exact Bool.and_eq_false_iff.mpr (.inl (undisturbed listens).1)

section Runs

variable {w : World} {jobs : List PlannedJob} {limit : Option Number} {failFast : Bool}
  {c : Cancellation} {p : Pool} (reached : Pool.Reaches w (Pool.start w jobs limit failFast c) p)
  (ok : p.failure = none) (ended : p.IsOver) (undisturbed : Undisturbed w c p.log)
include reached ok ended undisturbed

/-- If a run is cancelled that nobody cancels from outside, some outcome of it
    is a failure. -/
theorem exists_failed_of_aborted (aborted : p.aborted = true) :
    ∃ o ∈ p.outcomesInOrder jobs.length, o.status = .failed := by
  obtain ⟨place, o, member, failed⟩ := Board.blamed_steps (unaborted_at_start undisturbed)
    undisturbed (Pool.lossless_of_start reached ok) aborted
  have told := Pool.told_of_start reached
  obtain ⟨job, found, -⟩ := told.stages _ member
  have present := Pool.getElem?_outcomesInOrder reached ok ended found
  rw [Stage.place, Pool.outcomeAt?_of_reported ended told.distinct member] at present
  exact ⟨o, List.mem_of_getElem? present, failed⟩

/-- All outcomes of a run that nobody cancels from outside are successes if and
    only if every job succeeds alone. -/
theorem all_succeeded_iff :
    (∀ o ∈ p.outcomesInOrder jobs.length, o.status = .succeeded) ↔
      ∀ (i : Nat) (job : PlannedJob), jobs[i]? = some job →
        (job.runAlone i w.endings fun _ => false).status = .succeeded := by
  constructor
  · intro all i job found
    have unaborted : p.aborted = false := by
      by_contra aborted
      obtain ⟨o, member, failed⟩ := exists_failed_of_aborted reached ok ended undisturbed
        (Bool.eq_true_of_not_eq_false aborted)
      rw [all o member] at failed
      cases failed
    exact all _ (List.mem_of_getElem? (outcome_of_unaborted reached ok ended found unaborted))
  · intro succeeds o member
    have unaborted : p.aborted = false :=
      Board.unaborted_steps succeeds (Pool.told_start w jobs limit failFast c) undisturbed
        (unaborted_at_start undisturbed) (Pool.lossless_of_start reached ok)
    obtain ⟨i, present⟩ := List.mem_iff_getElem?.mp member
    have inside : i < jobs.length := by
      rw [← Pool.length_outcomesInOrder reached ok ended]
      exact (List.getElem?_eq_some_iff.mp present).1
    have found := List.getElem?_eq_getElem inside
    rw [outcome_of_unaborted reached ok ended found unaborted] at present
    rw [← Option.some.inj present]
    exact succeeds i jobs[i] found

end Runs

/-- Two runs of the same jobs that nobody cancels from outside, with the same
    results of the actions, succeed together. -/
theorem Reports.all_succeeded_iff {w₁ w₂ : World}
    (same : ∀ r step, (w₁.behaviour r step).ending.result = (w₂.behaviour r step).ending.result)
    {jobs : List PlannedJob} {limit₁ limit₂ : Option Number} {failFast₁ failFast₂ : Bool}
    {c₁ c₂ : Cancellation} {report₁ report₂ : Report (List JobOutcome)}
    (h₁ : Reports w₁ jobs limit₁ failFast₁ c₁ report₁)
    (undisturbed₁ : Undisturbed w₁ c₁ report₁.log)
    (h₂ : Reports w₂ jobs limit₂ failFast₂ c₂ report₂)
    (undisturbed₂ : Undisturbed w₂ c₂ report₂.log) :
    (∀ o ∈ report₁.result, o.status = .succeeded) ↔
      ∀ o ∈ report₂.result, o.status = .succeeded := by
  obtain ⟨p₁, reached₁, ended₁, ok₁, rfl⟩ := h₁
  obtain ⟨p₂, reached₂, ended₂, ok₂, rfl⟩ := h₂
  have alone (i : Nat) (job : PlannedJob) : (job.runAlone i w₁.endings fun _ => false) =
      job.runAlone i w₂.endings fun _ => false :=
    congrArg (·.outcome job) (JobState.runSteps_congr same _ 0 _ _)
  rw [Run.all_succeeded_iff reached₁ ok₁ ended₁ undisturbed₁,
    Run.all_succeeded_iff reached₂ ok₂ ended₂ undisturbed₂]
  simp only [alone]

end Run

namespace Pipeline

theorem status_result_congr (p : Pipeline) (plan : Plan) {outcomes outcomes' : List JobOutcome}
    (same : (∀ o ∈ outcomes, o.status = .succeeded) ↔ ∀ o ∈ outcomes', o.status = .succeeded) :
    (p.result plan outcomes).status = (p.result plan outcomes').status := by
  have success : (p.result plan outcomes).success = (p.result plan outcomes').success := by
    rw [Bool.eq_iff_iff]
    simpa only [result, List.all_eq_true, decide_eq_true_eq] using same
  simp only [PipelineResult.status, success]

theorem reports_of_run {p : Pipeline} {w : Run.World} {o : Overrides} {c : Run.Cancellation}
    {r : Run.Report PipelineResult} (h : p.run w o c = .ok r) :
    ∃ report, Run.Reports w (Plan.ofPipeline p o.runners).jobs (p.limit o)
        (o.failFast.getD p.strategy.failFast) c report ∧
      r = ⟨report.log, p.result (Plan.ofPipeline p o.runners) report.result⟩ := by
  obtain ⟨report, ran, h⟩ := exists_of_bind_eq_ok h
  cases h
  exact ⟨report, Run.reports_of_runJobs ran, rfl⟩

end Pipeline

namespace Run

/-- **The verdict does not depend on the schedule.**  Take two worlds in which
    the action of each step ends with the same result, whatever else differs,
    and any two runs of the same jobs, fail-fast or not, under any limits, in
    any order of their moves.  If nobody cancels them from outside, all jobs
    succeed in the one if and only if they do in the other.  So a pipeline that
    runs under two settings ends with the same status. -/
theorem verdict_independent {w₁ w₂ : World}
    (same : ∀ r step, (w₁.behaviour r step).ending.result = (w₂.behaviour r step).ending.result) :
    (∀ (jobs : List PlannedJob) (limit₁ limit₂ : Option Number) (failFast₁ failFast₂ : Bool)
      (c₁ c₂ : Cancellation) (report₁ report₂ : Report (List JobOutcome)),
      Reports w₁ jobs limit₁ failFast₁ c₁ report₁ → Undisturbed w₁ c₁ report₁.log →
      Reports w₂ jobs limit₂ failFast₂ c₂ report₂ → Undisturbed w₂ c₂ report₂.log →
      ((∀ o ∈ report₁.result, o.status = .succeeded) ↔
        ∀ o ∈ report₂.result, o.status = .succeeded) ∧
      ∀ (p : Pipeline) (plan : Plan),
        (p.result plan report₁.result).status = (p.result plan report₂.result).status) ∧
    ∀ (p : Pipeline) (o₁ o₂ : Overrides) (c₁ c₂ : Cancellation)
      (report₁ report₂ : Report PipelineResult), o₁.runners = o₂.runners →
      p.run w₁ o₁ c₁ = .ok report₁ → Undisturbed w₁ c₁ report₁.log →
      p.run w₂ o₂ c₂ = .ok report₂ → Undisturbed w₂ c₂ report₂.log →
      report₁.result.status = report₂.result.status := by
  constructor
  · intro jobs limit₁ limit₂ failFast₁ failFast₂ c₁ c₂ report₁ report₂ h₁ undisturbed₁ h₂
      undisturbed₂
    have verdict := h₁.all_succeeded_iff same undisturbed₁ h₂ undisturbed₂
    exact ⟨verdict, fun p plan => p.status_result_congr plan verdict⟩
  · intro p o₁ o₂ c₁ c₂ r₁ r₂ runners ran₁ undisturbed₁ ran₂ undisturbed₂
    obtain ⟨report₁, h₁, rfl⟩ := Pipeline.reports_of_run ran₁
    obtain ⟨report₂, h₂, rfl⟩ := Pipeline.reports_of_run ran₂
    rw [← runners] at h₂ ⊢
    exact p.status_result_congr _ (h₁.all_succeeded_iff same undisturbed₁ h₂ undisturbed₂)

def World.failing (delay : Option Nat) (ending : ActionEnd) : World :=
  ⟨1, fun _ _ => ⟨delay, ending, false, []⟩, false, none⟩

theorem verdict_independent_of_delays :
    let w₁ := World.failing (some 5) (.completed ⟨false, some "broken"⟩)
    let w₂ := World.failing none (.failed "broken")
    ∃ report₁ report₂, runJobs w₁ [oneStep 0, oneStep 1] (some 1) true .never = .ok report₁ ∧
      runJobs w₂ [oneStep 0, oneStep 1] none false .never = .ok report₂ ∧
      ((∀ o ∈ report₁.result, o.status = .succeeded) ↔
        ∀ o ∈ report₂.result, o.status = .succeeded) := by
  intro w₁ w₂
  have same (r : Running) (step : PlannedStep) :
      (w₁.behaviour r step).ending.result = (w₂.behaviour r step).ending.result := rfl
  obtain ⟨report₁, ran₁⟩ : ∃ report, runJobs w₁ [oneStep 0, oneStep 1] (some 1) true .never =
    .ok report := runJobs_eq_ok rfl
  obtain ⟨report₂, ran₂⟩ : ∃ report, runJobs w₂ [oneStep 0, oneStep 1] none false .never =
    .ok report := runJobs_eq_ok rfl
  have verdict := (verdict_independent same).1 _ _ _ _ _ _ _ _ _ (reports_of_runJobs ran₁) nofun
    (reports_of_runJobs ran₂) nofun
  exact ⟨report₁, report₂, ran₁, ran₂, verdict.1⟩

end Run

end JobMatrix
