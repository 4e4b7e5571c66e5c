import JobMatrix.Proofs.Run.Alone

/-! # Each job as if it ran alone

Side by side with others a job ends as it does alone.  All that the others can
do to it is to cancel the run, and then the job sees from some turn on what it
would see if somebody had cancelled it alone.  A job that the run no longer
starts is reported as cancelled.
-/

namespace JobMatrix.Run

/-- A job is refused: when the run is cancelled already it finishes as
    cancelled, and nothing else happens to it. -/
def Refused (w : World) (failFast : Bool) (c : Cancellation) (log : List Event) (place : Nat)
    (job : PlannedJob) : Prop :=
  happenings log place = [.jobFinish job job.cancelled] ∧
    ∃ before t after, log = before ++ ⟨t, some place, .jobFinish job job.cancelled⟩ :: after ∧
      cancelledBy w failFast c before = true

theorem Ordered.refused {w : World} {failFast aborted : Bool} {c : Cancellation}
    {log : List Event} (h : Ordered w failFast c aborted log) {place : Nat} {job : PlannedJob}
    (told : happenings log place = [.jobFinish job job.cancelled]) :
    Refused w failFast c log place job := by
  refine ⟨told, ?_⟩
  -- Its finish is the first thing told of the job, so it was allowed by a request.
  rw [happenings, List.filterMap_eq_cons_iff] at told
  obtain ⟨before, ⟨t, place', what⟩, after, rfl, silent, shown, -⟩ := told
  dsimp only at shown
  split at shown
  · next same =>
      obtain rfl := Option.some.inj shown
      subst same
      have nothing : happenings before place = [] := List.filterMap_eq_nil_iff.mpr silent
      exact ⟨before, t, after, rfl, h.allowed _ _ _ rfl place rfl nothing⟩
  · cases shown

section Runs

variable {w : World} {jobs : List PlannedJob} {limit : Option Number} {failFast : Bool}
  {c : Cancellation} {p : Pool} (reached : Pool.Reaches w (Pool.start w jobs limit failFast c) p)
include reached

/-- A run that is not fail-fast and that nobody cancels from outside is never
    cancelled. -/
theorem unaborted_of_undisturbed (undisturbed : Undisturbed w c p.log)
    (harmless : failFast = false) : p.aborted = false := by
  rw [(Pool.ordered_of_start reached).aborted]
  apply cancelledBy_eq_false undisturbed
  intro e _ job outcome _
  rw [harmless, Bool.false_and]

variable (ok : p.failure = none) (ended : p.IsOver) {i : Nat} {job : PlannedJob}
  (found : jobs[i]? = some job)
include ok ended found

theorem outcome_of_unaborted (unaborted : p.aborted = false) :
    (p.outcomesInOrder jobs.length)[i]? = some (job.runAlone i w.endings fun _ => false) := by
  obtain ⟨o, present, story⟩ := Pool.story_of_isOver reached ok ended found
  rw [Pool.getElem?_outcomesInOrder reached ok ended found, present]
  rw [unaborted] at story
  rw [story.along_of_unaborted.outcome]

theorem refused_or_alone : ∃ o, (p.outcomesInOrder jobs.length)[i]? = some o ∧
    (o = job.cancelled ∧ Refused w failFast c p.log i job ∨
      ∃ k, o = job.runAlone i w.endings (fun j => decide (k ≤ j)) ∧ EndsAlone w i job o) := by
  obtain ⟨o, present, story⟩ := Pool.story_of_isOver reached ok ended found
  refine ⟨o, (Pool.getElem?_outcomesInOrder reached ok ended found).trans present, ?_⟩
  rcases story.along with ⟨told, refused⟩ | ⟨k, -, same⟩
  · cases refused
    exact .inl ⟨rfl, (Pool.ordered_of_start reached).refused told⟩
  · right
    have alone := same _ fun j _ => rfl
    exact ⟨k, alone, endsAlone_iff.mpr ⟨k, alone⟩⟩

end Runs

/-- **Side by side is as alone.**  Whatever the limit, the order of the moves,
    the times and the requests to cancel, `runJobs` reports one outcome for each
    job, in the order of the jobs: a job that finds the run cancelled is
    refused, and every other job has the outcome of a run of that job alone,
    with a signal that is aborted from some turn on, or never.  A run that
    nothing cancels gives what the jobs give alone, one by one, without a
    signal.  There is a report unless an observer fails. -/
theorem runJobs_refines_runJob (w : World) (jobs : List PlannedJob) (limit : Option Number)
    (failFast : Bool) (c : Cancellation) :
    (w.observer = none → ∃ report, runJobs w jobs limit failFast c = .ok report) ∧
    (∀ report, runJobs w jobs limit failFast c = .ok report →
      Reports w jobs limit failFast c report) ∧
    ∀ report, Reports w jobs limit failFast c report →
      report.result.length = jobs.length ∧
      (∀ i job, jobs[i]? = some job → ∃ o, report.result[i]? = some o ∧
        (o = job.cancelled ∧ Refused w failFast c report.log i job ∨
          ∃ k, o = job.runAlone i w.endings (fun j => decide (k ≤ j)) ∧ EndsAlone w i job o)) ∧
      (failFast = false → Undisturbed w c report.log →
        report.result = jobs.mapIdx (fun i job => job.runAlone i w.endings fun _ => false) ∧
        ∀ i job, jobs[i]? = some job → ∃ log,
          runJob w.deaf i job .never = .ok ⟨log, report.result[i]?⟩) := by
  refine ⟨runJobs_eq_ok, fun report => reports_of_runJobs, ?_⟩
  rintro _ ⟨p, reached, ended, ok, rfl⟩
  refine ⟨Pool.length_outcomesInOrder reached ok ended, fun i job found => ?_, ?_⟩
  · exact refused_or_alone reached ok ended found
  · intro harmless undisturbed
    have unaborted := unaborted_of_undisturbed reached undisturbed harmless
    refine ⟨List.ext_getElem? fun i => ?_, fun i job found => ?_⟩
    · rw [List.getElem?_mapIdx]
      cases found : jobs[i]? with
      | none =>
          have outside := List.getElem?_eq_none_iff.mp found
          rw [← Pool.length_outcomesInOrder reached ok ended] at outside
          exact List.getElem?_eq_none outside
      | some job => exact outcome_of_unaborted reached ok ended found unaborted
    · obtain ⟨log, alone⟩ := runJob_deaf w i job .never
      refine ⟨log, ?_⟩
      rw [alone, outcome_of_unaborted reached ok ended found unaborted]

theorem runJobs_refines_runJob_dry :
    ∃ report, runJobs (World.dry false none) [oneStep 0, oneStep 1] none false .never =
        .ok report ∧
      report.result.map (·.status) = [.succeeded, .succeeded] := by
  obtain ⟨exists_report, reports, alone⟩ := runJobs_refines_runJob (World.dry false none)
    [oneStep 0, oneStep 1] none false .never
  obtain ⟨report, ran⟩ := exists_report rfl
  refine ⟨report, ran, ?_⟩
  rw [((alone report (reports report ran)).2.2 rfl nofun).1]
  rfl

end JobMatrix.Run
