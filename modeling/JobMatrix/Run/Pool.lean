import JobMatrix.Total
import JobMatrix.Run.Event
import JobMatrix.Run.World

/-! # Running jobs side by side

A pool has a bounded number of workers.  Each worker takes the next job,
passes its steps, reports its outcome, and looks for another job.  Workers
that can go on do so one at a time, first come first served; when none can,
the clock moves to the earliest timer.

A job that finds the run cancelled is not started.  With fail-fast, the
report of a failed job cancels the run.
-/

namespace JobMatrix.Run

/-- What a worker does next. -/
inductive Task
  /-- It looks for a job. -/
  | next
  /-- It gives the next step its turn. -/
  | advance (r : Running)
  /-- It waits for an action that passes on some more turns after this one. -/
  | act (r : Running) (step : PlannedStep) (b : Behaviour) (more : Nat)
  /-- It reports the outcome of its job. -/
  | report (r : Running)

/-- What a timer is for. -/
inductive Alarm
  | abort
  | actionEnd (r : Running) (step : PlannedStep) (b : Behaviour)

/-- An alarm at its time. -/
structure Timer where
  time : Nat
  alarm : Alarm

/-- The state of a run. -/
structure Pool where
  waiting : List (Nat × PlannedJob)
  ready : List Task
  timers : List Timer
  clock : Nat
  aborted : Bool
  failFast : Bool
  outcomes : List (Nat × JobOutcome)
  log : List Event
  failure : Option String

def earliest? : List Timer → Option (Timer × List Timer)
  | [] => none
  | t :: rest =>
      match earliest? rest with
      | none => some (t, [])
      | some (u, others) => if u.time < t.time then some (u, t :: others) else some (t, rest)

namespace Alarm

def endsAction : Alarm → Bool
  | abort => false
  | actionEnd .. => true

end Alarm

namespace Pool

/-- Logs something that belongs to the job at a place. -/
def record (p : Pool) (place : Option Nat) (what : Happening) : Pool :=
  { p with log := p.log ++ [⟨p.clock, place, what⟩] }

/-- Lets a worker go on before all others. -/
def goOn (p : Pool) (t : Task) : Pool :=
  { p with ready := t :: p.ready }

/-- Puts a worker behind all others. -/
def lineUp (p : Pool) (t : Task) : Pool :=
  { p with ready := p.ready ++ [t] }

def setTimer (p : Pool) (delay : Nat) (alarm : Alarm) : Pool :=
  { p with timers := p.timers ++ [⟨p.clock + delay, alarm⟩] }

def finish (p : Pool) (place : Nat) (job : PlannedJob) (outcome : JobOutcome) : Pool :=
  { p.record place (.jobFinish job outcome) with outcomes := p.outcomes ++ [(place, outcome)] }

/-- Logs the result of the step that a job has settled last, and goes on with
    the job. -/
def settled (p : Pool) (w : World) (r : Running) : Pool :=
  match r.state.results.getLast? with
  | none => p.goOn (.advance r)
  | some result =>
      let p := p.record r.place (.stepFinish r.job result)
      match w.failureAtFinish? result.id with
      | some message => { p with failure := some message }
      | none => p.goOn (.advance r)

def complete (p : Pool) (w : World) (r : Running) (step : PlannedStep) (b : Behaviour) : Pool :=
  p.settled w { r with state := r.state.complete step b.ending.result }

/-- Waits for an action that has passed on its turns. -/
def await (p : Pool) (w : World) (r : Running) (step : PlannedStep) (b : Behaviour) : Pool :=
  match b.delay with
  | some delay => p.setTimer delay (.actionEnd r step b)
  | none => p.complete w r step b

def begin (p : Pool) (w : World) (r : Running) (step prepared : PlannedStep) : Pool :=
  let p := p.record r.place (.stepStart r.job prepared)
  match w.failureAtStart? step.id with
  | some message => { p with failure := some message }
  | none =>
      let p := p.record r.place (.actionStart r.job prepared r.state.context)
      let b := w.behaviour r prepared
      match w.lead with
      | 0 => p.await w r step b
      | more + 1 => p.lineUp (.act r step b more)

/-- Takes the next job: starts it, or reports it as cancelled. -/
def takeJob (p : Pool) : Pool :=
  match p.waiting with
  | [] => p
  | (place, job) :: waiting =>
      let p := { p with waiting }
      if p.aborted then (p.finish place job job.cancelled).goOn .next
      else (p.record place (.jobStart job)).goOn (.advance ⟨place, job, JobState.start job, job.steps⟩)

/-- Gives the next step of a job its turn; behind the last one the job is
    over. -/
def advance (p : Pool) (w : World) (r : Running) : Pool :=
  match r.rest with
  | [] => p.lineUp (.report r)
  | step :: rest =>
      match r.state.turn r.job p.aborted step with
      | .settled state => p.settled w { r with state, rest }
      | .started state prepared => p.begin w { r with state, rest } step prepared

/-- Reports the outcome of a job, which cancels the run if it has failed and
    the run is fail-fast. -/
def report (p : Pool) (r : Running) : Pool :=
  let outcome := r.state.outcome r.job
  let p := p.finish r.place r.job outcome
  let aborted := p.aborted || (p.failFast && outcome.status = .failed)
  { p with aborted }.goOn .next

def perform (p : Pool) (w : World) : Task → Pool
  | .next => p.takeJob
  | .advance r => p.advance w r
  | .act r step b 0 => p.await w r step b
  | .act r step b (more + 1) => p.lineUp (.act r step b more)
  | .report r => p.report r

def abort (p : Pool) (w : World) : Pool :=
  { p.record none .abort with aborted := p.aborted || w.listens }

def fire (p : Pool) (w : World) : Alarm → Pool
  | .abort => p.abort w
  | .actionEnd r step b =>
      let p := p.record r.place (.actionEnd r.job step b.output)
      let p := if b.aborts then p.abort w else p
      p.complete w r step b

/-- The next state of a run; a run is over when no worker can go on or waits
    for an action, or when an observer has failed. -/
def step? (p : Pool) (w : World) : Option Pool :=
  if p.failure.isSome then none
  else match p.ready with
    | task :: ready => some ({ p with ready }.perform w task)
    | [] =>
        if p.timers.any (·.alarm.endsAction) then
          (earliest? p.timers).map fun (t, timers) =>
            { p with timers, clock := t.time }.fire w t.alarm
        else none

/-! ## A run ends

Each state of a run has less work left than the one before. -/

/-- The work of a step: its turn, the turns that its action passes on, its
    timer. -/
def stepWork (w : World) : Nat := w.lead + 3

/-- The work left of a job under way. -/
def runningWork (w : World) (r : Running) : Nat :=
  stepWork w * r.rest.length + 4

def waitingWork (w : World) (job : PlannedJob) : Nat :=
  stepWork w * job.steps.length + 5

def taskWork (w : World) : Task → Nat
  | .next => 1
  | .advance r => runningWork w r
  | .act r _ _ more => runningWork w r + more + 2
  | .report _ => 3

def timerWork (w : World) (t : Timer) : Nat :=
  match t.alarm with
  | .abort => 1
  | .actionEnd r _ _ => runningWork w r + 1

def work (w : World) (p : Pool) : Nat :=
  total (fun entry => waitingWork w entry.2) p.waiting + total (taskWork w) p.ready
    + total (timerWork w) p.timers

theorem work_record (w : World) (p : Pool) (place : Option Nat) (what : Happening) :
    (p.record place what).work w = p.work w := rfl

theorem work_goOn (w : World) (p : Pool) (t : Task) :
    (p.goOn t).work w = p.work w + taskWork w t := by
  simp only [work, goOn, total_cons]
  omega

theorem work_lineUp (w : World) (p : Pool) (t : Task) :
    (p.lineUp t).work w = p.work w + taskWork w t := by
  simp only [work, lineUp, total_append, total_cons, total_nil]
  omega

theorem work_setTimer (w : World) (p : Pool) (delay : Nat) (alarm : Alarm) :
    (p.setTimer delay alarm).work w = p.work w + timerWork w ⟨p.clock + delay, alarm⟩ := by
  simp only [work, setTimer, total_append, total_cons, total_nil]
  omega

theorem work_finish (w : World) (p : Pool) (place : Nat) (job : PlannedJob) (o : JobOutcome) :
    (p.finish place job o).work w = p.work w := rfl

theorem work_abort (w : World) (p : Pool) : (p.abort w).work w = p.work w := rfl

theorem work_settled_le (w : World) (p : Pool) (r : Running) :
    (p.settled w r).work w ≤ p.work w + runningWork w r := by
  unfold settled
  split
  · rw [work_goOn]
    exact Nat.le_refl _
  · dsimp only
    split
    · exact Nat.le_add_right _ _
    · rw [work_goOn, work_record]
      exact Nat.le_refl _

theorem work_complete_le (w : World) (p : Pool) (r : Running) (step : PlannedStep) (b : Behaviour) :
    (p.complete w r step b).work w ≤ p.work w + runningWork w r :=
  work_settled_le w p { r with state := r.state.complete step b.ending.result }

theorem work_await_le (w : World) (p : Pool) (r : Running) (step : PlannedStep) (b : Behaviour) :
    (p.await w r step b).work w ≤ p.work w + runningWork w r + 1 := by
  unfold await
  split
  · rw [work_setTimer]
    exact Nat.le_refl _
  · exact Nat.le_succ_of_le (work_complete_le w p r step b)

theorem work_begin_le (w : World) (p : Pool) (r : Running) (step prepared : PlannedStep) :
    (p.begin w r step prepared).work w ≤ p.work w + runningWork w r + w.lead + 1 := by
  unfold begin
  dsimp only
  split
  · show p.work w ≤ _
    omega
  · split
    · have := work_await_le w ((p.record r.place (.stepStart r.job prepared)).record
        r.place (.actionStart r.job prepared r.state.context)) r step (w.behaviour r prepared)
      rw [work_record, work_record] at this
      omega
    · next more h =>
        rw [work_lineUp, work_record, work_record, taskWork]
        omega

theorem work_takeJob_lt (w : World) (p : Pool) : p.takeJob.work w < p.work w + 1 := by
  unfold takeJob
  split
  · exact Nat.lt_succ_self _
  · next place job waiting h =>
      have hp : p.work w = waitingWork w job + ({ p with waiting } : Pool).work w := by
        simp only [work, h, total_cons]
        omega
      dsimp only
      split
      · rw [work_goOn, work_finish, hp]
        simp only [taskWork, waitingWork]
        omega
      · rw [work_goOn, work_record, hp]
        simp only [taskWork, waitingWork, runningWork]
        omega

theorem work_advance_lt (w : World) (p : Pool) (r : Running) :
    (p.advance w r).work w < p.work w + runningWork w r := by
  unfold advance
  split
  · rw [work_lineUp]
    simp only [taskWork, runningWork]
    omega
  · next step rest h =>
      have hr : runningWork w r = stepWork w * rest.length + stepWork w + 4 := by
        simp only [runningWork, h, List.length_cons, Nat.mul_succ]
      split
      · next state _ =>
          have := work_settled_le w p { r with state, rest }
          simp only [runningWork, stepWork] at this hr ⊢
          omega
      · next state prepared _ =>
          have := work_begin_le w p { r with state, rest } step prepared
          simp only [runningWork, stepWork] at this hr ⊢
          omega

theorem work_perform_lt (w : World) (p : Pool) (t : Task) :
    (p.perform w t).work w < p.work w + taskWork w t := by
  match t with
  | .next => exact work_takeJob_lt w p
  | .advance r => exact work_advance_lt w p r
  | .act r step b 0 =>
      have := work_await_le w p r step b
      simp only [perform, taskWork]
      omega
  | .act r step b (more + 1) =>
      simp only [perform, work_lineUp, taskWork]
      omega
  | .report r =>
      simp only [perform, report, work_goOn, taskWork]
      exact Nat.add_lt_add_left (by decide) (p.work w)

theorem work_of_earliest? (w : World) {timers others : List Timer} {t : Timer}
    (h : earliest? timers = some (t, others)) :
    total (timerWork w) timers = timerWork w t + total (timerWork w) others := by
  induction timers generalizing t others with
  | nil => simp [earliest?] at h
  | cons head rest ih =>
      unfold earliest? at h
      split at h
      · next hn =>
          have : rest = [] := by
            cases rest with
            | nil => rfl
            | cons a as =>
                unfold earliest? at hn
                split at hn
                · cases hn
                · split at hn <;> cases hn
          cases h
          simp [this]
      · next u found hs =>
          split at h
          · cases h
            have := ih hs
            simp only [total_cons]
            omega
          · cases h
            simp

theorem work_fire_lt (w : World) (p : Pool) (t : Timer) :
    (p.fire w t.alarm).work w < p.work w + timerWork w t := by
  unfold fire timerWork
  split
  · rw [work_abort]
    exact Nat.lt_succ_self _
  · next r step b h =>
      have := work_complete_le w
        (if b.aborts then (p.record r.place (.actionEnd r.job step b.output)).abort w
          else p.record r.place (.actionEnd r.job step b.output)) r step b
      have same : (if b.aborts then (p.record r.place (.actionEnd r.job step b.output)).abort w
          else p.record r.place (.actionEnd r.job step b.output)).work w = p.work w := by
        split <;> rfl
      rw [same] at this
      exact Nat.lt_succ_of_le this

theorem work_step?_lt (w : World) {p q : Pool} (h : p.step? w = some q) : q.work w < p.work w := by
  unfold step? at h
  split at h
  · cases h
  · split at h
    · next task ready hr =>
        cases h
        have := work_perform_lt w { p with ready } task
        have hp : p.work w = ({ p with ready } : Pool).work w + taskWork w task := by
          simp only [work, hr, total_cons]
          omega
        omega
    · split at h
      · simp only [Option.map_eq_some_iff] at h
        obtain ⟨⟨t, timers⟩, found, rfl⟩ := h
        have := work_fire_lt w { p with timers, clock := t.time } t
        have hp : p.work w = ({ p with timers, clock := t.time } : Pool).work w + timerWork w t := by
          simp only [work, work_of_earliest? w found]
          omega
        exact hp ▸ this
      · cases h

def run (p : Pool) (w : World) : Pool :=
  match _step : p.step? w with
  | none => p
  | some q => q.run w
termination_by p.work w
decreasing_by exact work_step?_lt w _step

/-! ## Starting a run -/

/-- The number of workers: the limit if it is a positive whole number, but not
    more than there are jobs, and at least one. -/
def workers (limit : Option Number) (jobs : Nat) : Nat :=
  match limit.bind Number.toNat? with
  | some (n + 1) => max 1 (min (n + 1) jobs)
  | _ => max 1 jobs

def abortTimers (abortAt : Option Nat) : List Timer :=
  match abortAt with
  | none => []
  | some time => [⟨time, .abort⟩]

def ofJobs (jobs : List PlannedJob) (limit : Option Number) (failFast aborted : Bool)
    (abortAt : Option Nat) : Pool where
  waiting := jobs.zipIdx.map fun (job, place) => (place, job)
  ready := List.replicate (workers limit jobs.length) .next
  timers := abortTimers abortAt
  clock := 0
  aborted := aborted
  failFast := failFast
  outcomes := []
  log := []
  failure := none

/-- The first state of a run of one job that has been taken already. -/
def ofJob (place : Nat) (job : PlannedJob) (aborted : Bool) (abortAt : Option Nat) : Pool where
  waiting := []
  ready := [.advance ⟨place, job, JobState.start job, job.steps⟩]
  timers := abortTimers abortAt
  clock := 0
  aborted := aborted
  failFast := false
  outcomes := []
  log := []
  failure := none

def outcomeAt? (p : Pool) (place : Nat) : Option JobOutcome :=
  (p.outcomes.find? fun entry => entry.1 == place).map Prod.snd

def outcomesInOrder (p : Pool) (jobs : Nat) : List JobOutcome :=
  (List.range jobs).filterMap p.outcomeAt?

end Pool

/-- When and how a run can be cancelled from outside. -/
structure Cancellation where
  aborted : Bool
  abortAt : Option Nat
  deriving Repr, DecidableEq

def Cancellation.never : Cancellation := ⟨false, none⟩

/-- The log of a run, with the outcomes of its jobs in order. -/
structure Report (α : Type) where
  log : List Event
  result : α
  deriving Repr

/-- Runs jobs side by side, or gives the message of an observer that failed. -/
def runJobs (w : World) (jobs : List PlannedJob) (limit : Option Number) (failFast : Bool)
    (c : Cancellation) : Except String (Report (List JobOutcome)) :=
  let last := (Pool.ofJobs jobs limit failFast (c.aborted && w.listens) c.abortAt).run w
  match last.failure with
  | some message => .error message
  | none => .ok ⟨last.log, last.outcomesInOrder jobs.length⟩

/-- Runs one job at its place, or gives the message of an observer that
    failed. -/
def runJob (w : World) (place : Nat) (job : PlannedJob) (c : Cancellation) :
    Except String (Report (Option JobOutcome)) :=
  let last := (Pool.ofJob place job (c.aborted && w.listens) c.abortAt).run w
  match last.failure with
  | some message => .error message
  | none => .ok ⟨last.log.filter (·.what.isOfSteps), last.outcomeAt? place⟩

end JobMatrix.Run
