import JobMatrix.Proofs.Run.History

/-! # What actions are prepared from

Whatever becomes of a job, its expressions keep the matrix, the environment and
the runner that it was planned with: a turn changes its status and the records
of its steps.  So each action that starts is a step of the job whose templates
are filled in in a context of this kind.
-/

namespace JobMatrix

/-- A context of a job: only its status and the steps that are over are not
    settled by the plan. -/
def JobContext.IsOf (job : PlannedJob) (c : JobContext) : Prop :=
  ∃ status steps,
    c = { start job.matrix job.env job.runnerOs with status := status, steps := steps }

theorem JobContext.isOf_start (job : PlannedJob) :
    (start job.matrix job.env job.runnerOs).IsOf job :=
  ⟨_, _, rfl⟩

namespace JobState

variable {s s' : JobState} {job : PlannedJob} {step : PlannedStep}

theorem isOf_notice (flag : Bool) (h : s.context.IsOf job) : (s.notice flag).context.IsOf job := by
  obtain ⟨status, steps, same⟩ := h
  obtain ⟨status', noticed⟩ := notice_eq s flag
  rw [noticed]
  exact ⟨status', steps, by rw [same]⟩

theorem Records.isOf (records : s.Records step s') (h : s.context.IsOf job) :
    s'.context.IsOf job := by
  obtain ⟨status, steps, same⟩ := h
  obtain ⟨state, status', -, context⟩ := records
  exact ⟨status', _, by rw [context, same]⟩

end JobState

namespace Run

def Happening.Prepared (job : PlannedJob) : Happening → Prop
  | .actionStart _ prepared context => context.IsOf job ∧
      ∃ step ∈ job.steps, step.prepare context.toContext = .ok prepared
  | _ => True

/-- A job under way has a context of its own, and steps of its own before it. -/
def Stage.Keeps (job : PlannedJob) : Stage → Prop
  | turning r | acting r _ _ => r.state.context.IsOf job ∧ r.rest ⊆ job.steps
  | closing _ | reported .. => True

variable {w : World} {place : Nat} {job : PlannedJob}

theorem forall_prepared_concat {told : List Happening} {what : Happening}
    (h : ∀ before ∈ told, before.Prepared job) (now : what.Prepared job) :
    ∀ each ∈ told ++ [what], each.Prepared job := by
  rw [List.forall_mem_append, List.forall_mem_singleton]
  exact ⟨h, now⟩

theorem Story.prepared {aborted : Bool} {told : List Happening} {x : Stage}
    (h : Story w place job aborted told x) :
    (∀ what ∈ told, what.Prepared job) ∧ x.Keeps job := by
  induction h with
  | refused => exact ⟨List.forall_mem_singleton.mpr trivial, trivial⟩
  | started =>
      exact ⟨List.forall_mem_singleton.mpr trivial, JobContext.isOf_start job,
        List.Subset.refl _⟩
  | settled before next turn last ih =>
      obtain ⟨prepared, isOf, rest⟩ := ih
      rw [next] at rest
      exact ⟨forall_prepared_concat prepared trivial, (JobState.records_of_settled turn).isOf isOf,
        List.Subset.trans (List.subset_cons_self _ _) rest⟩
  | @begun aborted told r step _ rest s before next turn ih =>
      obtain ⟨prepared, isOf, steps⟩ := ih
      rw [next] at steps
      obtain ⟨rfl, -, filled⟩ := JobState.turn_eq_started turn
      -- The turn has done no more than notice a request to cancel.
      have now := JobState.isOf_notice aborted isOf
      refine ⟨?_, now, List.Subset.trans (List.subset_cons_self _ _) steps⟩
      apply forall_prepared_concat
      · exact forall_prepared_concat prepared trivial
      · exact ⟨now, step, steps List.mem_cons_self, filled⟩
  | ended before ih => exact ⟨forall_prepared_concat ih.1 trivial, ih.2⟩
  | completed before last ih =>
      obtain ⟨prepared, isOf, rest⟩ := ih
      exact ⟨forall_prepared_concat prepared trivial,
        (JobState.records_complete _ _ _).isOf isOf, rest⟩
  | closed before next ih => exact ⟨ih.1, trivial⟩
  | reported before ih => exact ⟨forall_prepared_concat ih.1 trivial, trivial⟩
  | raised before ih => exact ih

theorem Pool.Executes.prepared {p : Pool} (run : Executes w place job p) :
    ∀ what ∈ happenings p.log place, what.Prepared job := by
  apply run.tells (motive := fun told => ∀ what ∈ told, what.Prepared job)
  · exact List.forall_mem_nil _
  · exact fun story => story.prepared.1
  · exact fun j s prepared => forall_prepared_concat prepared trivial
  · exact fun prepared => (List.forall_mem_cons.mp prepared).2

end Run

end JobMatrix
