import JobMatrix.Proofs.Run.Truncation

/-! # A job that finds the run cancelled

A job that finds the run cancelled when it begins, and whose steps ask for no
status, passes all its steps and starts none.  It comes to the same outcome as a
job that is not started at all.
-/

namespace JobMatrix

/-- Every step of a job is for its platform and asks for no status. -/
structure PlannedJob.AsksNothing (job : PlannedJob) : Prop where
  admits : ∀ step ∈ job.steps, step.Admits job.platform
  plain : ∀ step ∈ job.steps, Expr.AsksNoStatus step.condition

/-! ## The steps of a cancelled job -/

namespace JobState

variable {place : Nat} {job : PlannedJob} {act : Running → PlannedStep → ActionEnd}
  {aborted : Nat → Bool}

def skipAll (s : JobState) (reason : SkipReason) (steps : List PlannedStep) : JobState :=
  steps.foldl (fun s step => s.skip step reason) s

theorem outcome_skipAll (s : JobState) (job : PlannedJob) (reason : SkipReason)
    (steps : List PlannedStep) :
    (s.skipAll reason steps).outcome job = { s.outcome job with
      steps := s.results ++ steps.map (·.result (.skipped reason)) } := by
  induction steps generalizing s with
  | nil => simp [skipAll, outcome]
  | cons step rest ih =>
      have first : s.skipAll reason (step :: rest) = (s.skip step reason).skipAll reason rest := rfl
      rw [first, ih, List.map_cons, List.append_cons]
      rfl

theorem runSteps_of_cancelled {s : JobState} (cancelled : s.status = .cancelled) (i : Nat)
    {steps : List PlannedStep} (admits : ∀ step ∈ steps, step.Admits job.platform)
    (plain : ∀ step ∈ steps, Expr.AsksNoStatus step.condition) :
    s.runSteps place job act aborted i steps = s.skipAll .cancelled steps := by
  induction steps generalizing i s with
  | nil => rfl
  | cons step rest ih =>
      have unsuccessful : s.status ≠ .success := cancelled ▸ JobStatus.noConfusion
      have turn : s.turn job (aborted i) step = .settled (s.skip step .cancelled) := by
        have noticed := notice_of_unsuccessful unsuccessful (aborted i)
        rw [turn_of_unsuccessful (noticed.symm ▸ unsuccessful) (admits step List.mem_cons_self)
          (plain step List.mem_cons_self), noticed, cancelled]
        rfl
      rw [runSteps_cons, turn]
      exact ih (s := s.skip step .cancelled) cancelled (i + 1)
        (fun step member => admits step (List.mem_cons_of_mem _ member))
        (fun step member => plain step (List.mem_cons_of_mem _ member))

end JobState

/-- Alone, such a job comes to the outcome of a job that is not started. -/
theorem PlannedJob.runAlone_eq_cancelled {job : PlannedJob} (nonempty : job.steps ≠ [])
    (asks : job.AsksNothing) (place : Nat) (act : Running → PlannedStep → ActionEnd)
    {aborted : Nat → Bool} (first : aborted 0 = true) :
    job.runAlone place act aborted = job.cancelled := by
  let noticed := (JobState.start job).notice true
  have cancelled : noticed.status = .cancelled := rfl
  have same : (JobState.start job).runSteps place job act aborted 0 job.steps =
      noticed.runSteps place job act aborted 0 job.steps := by
    cases steps : job.steps with
    | nil => exact absurd steps nonempty
    | cons step rest => rw [JobState.runSteps_cons, JobState.runSteps_cons, first]; rfl
  rw [PlannedJob.runAlone, same, JobState.runSteps_of_cancelled cancelled 0 asks.admits asks.plain,
    JobState.outcome_skipAll]
  rfl

namespace Run

/-! ## The run of a cancelled job -/

def Happening.starts : Happening → Bool
  | stepStart .. | actionStart .. => true
  | _ => false

/-- What a worker may do next that starts nothing of a job. -/
def Task.Idle (job : PlannedJob) : Task → Prop
  | next | report _ => True
  | advance r => r.job = job ∧ (r.view true).status ≠ .success ∧ ∀ step ∈ r.rest, step ∈ job.steps
  | act .. => False

namespace Pool

/-- The run of a job that starts nothing. -/
structure Idle (w : World) (job : PlannedJob) (p : Pool) : Prop where
  aborted : p.aborted = true
  waiting : p.waiting = []
  ready : ∀ t ∈ p.ready, t.Idle job
  timers : ∀ t ∈ p.timers, t.alarm = .abort
  log : ∀ e ∈ p.log, e.what.starts = false
  failure : ∀ message, p.failure = some message →
    ∃ step ∈ job.steps, w.failureAtFinish? step.id = some message

section Idle

variable {w : World} {place : Nat} {job : PlannedJob} {p q : Pool}

theorem idle_ofJob (w : World) (place : Nat) (job : PlannedJob) (abortAt : Option Nat) :
    (ofJob place job true abortAt).Idle w job := by
  refine ⟨rfl, rfl, List.forall_mem_singleton.mpr ?_, ?_, fun e member => ?_,
    fun message failed => ?_⟩
  · exact ⟨rfl, JobStatus.noConfusion, fun step member => member⟩
  · simp only [ofJob, abortTimers]
    cases abortAt <;> simp
  · cases member
  · cases failed

theorem Idle.record (h : p.Idle w job) (place : Option Nat) {what : Happening}
    (quiet : what.starts = false) : (p.record place what).Idle w job := by
  refine ⟨h.aborted, h.waiting, h.ready, h.timers, ?_, h.failure⟩
  intro e member
  rcases List.mem_append.mp member with member | member
  · exact h.log e member
  · rw [List.mem_singleton.mp member]
    exact quiet

theorem Idle.goOn (h : p.Idle w job) {t : Task} (idle : t.Idle job) : (p.goOn t).Idle w job :=
  ⟨h.aborted, h.waiting, List.forall_mem_cons.mpr ⟨idle, h.ready⟩, h.timers, h.log, h.failure⟩

theorem Idle.lineUp (h : p.Idle w job) {t : Task} (idle : t.Idle job) :
    (p.lineUp t).Idle w job := by
  refine ⟨h.aborted, h.waiting, ?_, h.timers, h.log, h.failure⟩
  exact List.forall_mem_append.mpr ⟨h.ready, List.forall_mem_singleton.mpr idle⟩

theorem Idle.abort (h : p.Idle w job) : (p.abort w).Idle w job := by
  have told : (p.record none .abort).Idle w job := h.record none rfl
  exact ⟨Bool.or_eq_true_iff.mpr (.inl h.aborted), told.waiting, told.ready, told.timers, told.log,
    told.failure⟩

theorem Idle.settled (h : p.Idle w job) {r : Running} (idle : (Task.advance r).Idle job)
    {result : StepResult} (last : r.state.results.getLast? = some result)
    (own : ∃ step ∈ job.steps, step.id = result.id) : (p.settled w r).Idle w job := by
  have told : (p.record r.place (.stepFinish r.job result)).Idle w job := h.record _ rfl
  simp only [Pool.settled, last]
  split
  · next message fails =>
      obtain ⟨step, member, same⟩ := own
      refine ⟨told.aborted, told.waiting, told.ready, told.timers, told.log, ?_⟩
      rintro _ ⟨⟩
      exact ⟨step, member, same ▸ fails⟩
  · exact told.goOn idle

/-- The turn of a step skips it. -/
theorem Idle.advance (asks : job.AsksNothing) (h : p.Idle w job) {r : Running}
    (idle : (Task.advance r).Idle job) : (p.advance w r).Idle w job := by
  obtain ⟨rfl, unsuccessful, steps⟩ := idle
  cases next : r.rest with
  | nil =>
      simp only [Pool.advance, next]
      exact h.lineUp trivial
  | cons step rest =>
      rw [next] at steps
      have member := steps step List.mem_cons_self
      simp only [Pool.advance, next, h.aborted, JobState.turn_of_unsuccessful unsuccessful
        (asks.admits step member) (asks.plain step member)]
      refine h.settled ⟨rfl, ?_, fun s later => steps s (List.mem_cons_of_mem _ later)⟩
        List.getLast?_concat ⟨step, member, rfl⟩
      exact JobState.status_notice_ne_success _

theorem Idle.move (asks : job.AsksNothing) (h : p.Idle w job) (move : Move w p q) :
    q.Idle w job := by
  cases move with
  | @perform before after task ready =>
      obtain ⟨idle, others⟩ : task.Idle job ∧ ∀ t ∈ before ++ after, t.Idle job := by
        have all := h.ready
        simp only [ready, List.forall_mem_append, List.forall_mem_cons] at all ⊢
        exact ⟨all.2.1, all.1, all.2.2⟩
      have taken : ({ p with ready := before ++ after } : Pool).Idle w job :=
        ⟨h.aborted, h.waiting, others, h.timers, h.log, h.failure⟩
      match task with
      | .next =>
          rw [perform, takeJob_eq_self taken.waiting]
          exact taken
      | .advance r => exact taken.advance asks idle
      | .act .. => cases idle
      | .report r =>
          have told : (({ p with ready := before ++ after } : Pool).record r.place
            (.jobFinish r.job (r.state.outcome r.job))).Idle w job := taken.record _ rfl
          exact ⟨Bool.or_eq_true_iff.mpr (.inl told.aborted), told.waiting,
            List.forall_mem_cons.mpr ⟨trivial, told.ready⟩, told.timers, told.log, told.failure⟩
  | @fire before after t time timers =>
      obtain ⟨alarm, others⟩ : t.alarm = .abort ∧ ∀ t ∈ before ++ after, t.alarm = .abort := by
        have all := h.timers
        simp only [timers, List.forall_mem_append, List.forall_mem_cons] at all ⊢
        exact ⟨all.2.1, all.1, all.2.2⟩
      rw [alarm]
      exact Idle.abort ⟨h.aborted, h.waiting, h.ready, others, h.log, h.failure⟩
  | abort => exact h.abort

theorem Idle.reach (asks : job.AsksNothing) (h : p.Idle w job) (reached : Reaches w p q) :
    q.Idle w job := by
  induction reached with
  | refl => exact h
  | tail _ move ih => exact ih.move asks move

end Idle

end Pool

section Aborted

variable {w : World} {place : Nat} {job : PlannedJob} {c : Cancellation} {p : Pool}
  (asks : job.AsksNothing) (listens : w.listens = true) (aborted : c.aborted = true)
  (reached : Pool.Reaches w (Pool.ofJob place job (c.aborted && w.listens) c.abortAt) p)
include asks listens aborted reached

theorem Pool.idle_of_aborted : p.Idle w job := by
  rw [aborted, listens, Bool.and_self] at reached
  exact (Pool.idle_ofJob w place job c.abortAt).reach asks reached

theorem outcomeAt?_of_aborted (nonempty : job.steps ≠ []) (ended : p.IsOver)
    (ok : p.failure = none) : p.outcomeAt? place = some job.cancelled := by
  obtain ⟨complete, present⟩ := alone_of_ofJob reached ok ended
  obtain ⟨flags, grown, allCancelled, -⟩ := Pool.turnFlags_of_reaches .refl reached ok
  have whole : turnFlags w c p.log = flags := grown
  have cancelled : (c.aborted && w.listens) = true := by rw [aborted, listens, Bool.and_self]
  rw [whole] at complete present
  have some : 0 < flags.length := complete ▸ List.length_pos_iff.mpr nonempty
  have first : flags.getD 0 false = true := by
    rw [allCancelled cancelled, List.getD_replicate _ some]
  rw [present, job.runAlone_eq_cancelled nonempty asks place w.endings first]

end Aborted

/-- **Cancelled from the start.**  Take a job with at least one step, whose steps
    are all for its platform and ask for no status, and a signal that is aborted
    before the job is executed.  Whatever the order of the moves, no step and no
    action starts, and the outcome is that of a job which is cancelled before it
    starts.  There is always an outcome, unless an observer fails at the finish of
    a step. -/
theorem unstarted_eq_cancelled {w : World} {place : Nat} {job : PlannedJob} {c : Cancellation}
    (nonempty : job.steps ≠ []) (asks : job.AsksNothing) (listens : w.listens = true)
    (aborted : c.aborted = true) :
    (∀ p, Pool.Reaches w (Pool.ofJob place job (c.aborted && w.listens) c.abortAt) p →
      (∀ e ∈ p.log, e.what.starts = false) ∧
      (p.IsOver → p.failure = none → p.outcomeAt? place = some job.cancelled)) ∧
    ((∀ step ∈ job.steps, w.failureAtFinish? step.id = none) → ∃ log,
      runJob w place job c = .ok ⟨log, some job.cancelled⟩ ∧ ∀ e ∈ log, e.what.starts = false) := by
  refine ⟨fun p reached => ⟨(Pool.idle_of_aborted asks listens aborted reached).log,
    outcomeAt?_of_aborted asks listens aborted reached nonempty⟩, fun silent => ?_⟩
  let last := (Pool.ofJob place job (c.aborted && w.listens) c.abortAt).run w
  have reached : Pool.Reaches w _ last := Pool.reaches_run w _
  have idle := Pool.idle_of_aborted asks listens aborted reached
  have ok : last.failure = none := by
    cases failed : last.failure with
    | none => rfl
    | some message =>
        obtain ⟨step, member, fails⟩ := idle.failure message failed
        cases (silent step member).symm.trans fails
  have ended := Pool.isOver_of_step? ok (Pool.step?_run w _)
  have outcome := outcomeAt?_of_aborted asks listens aborted reached nonempty ended ok
  refine ⟨last.log.filter (·.what.isOfSteps), ?_, fun e member => ?_⟩
  · simp only [runJob]
    rw [show (Pool.run _ w).failure = none from ok,
      show (Pool.run _ w).outcomeAt? place = _ from outcome]
  · exact idle.log e (List.mem_of_mem_filter member)

/-- A job of one step whose condition is true by itself. -/
theorem unstarted_eq_cancelled_quoted :
    let w := World.dry true none
    let job := oneStepIf "'yes'"
    job.steps ≠ [] ∧ job.AsksNothing ∧ w.listens = true ∧
      ∃ log, runJob w 0 job ⟨true, none⟩ = .ok ⟨log, some job.cancelled⟩ ∧
        ∀ e ∈ log, e.what.starts = false := by
  intro w job
  have nonempty : job.steps ≠ [] := List.cons_ne_nil _ _
  have asks : job.AsksNothing :=
    ⟨fun step member => admits_of_oneStepIf member job.platform,
      fun step member => condition_of_oneStepIf member ▸ asksNoStatus_quoted⟩
  exact ⟨nonempty, asks, rfl,
    (unstarted_eq_cancelled nonempty asks rfl rfl).2 fun _ _ => rfl⟩

end Run

end JobMatrix
