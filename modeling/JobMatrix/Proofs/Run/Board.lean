import Mathlib.Algebra.Order.Group.Multiset
import Mathlib.Tactic.Abel
import JobMatrix.Proofs.Run.Worker
import JobMatrix.Proofs.Run.Turn

/-! # The board of a run

Workers, queues and timers only say who goes on when.  What a run has done is
told by its board: the jobs that nobody has taken, the stages of the others in
no order, whether the run is cancelled, and the log.  Every move of a run is
made of a few steps on its board, each of one job.  Where an observer fails, a
job is lost: it leaves the board.
-/

namespace JobMatrix.Run

/-- What a job that somebody has taken is at. -/
inductive Stage
  | turning (r : Running)
  | acting (r : Running) (step : PlannedStep) (b : Behaviour)
  | closing (r : Running)
  | reported (place : Nat) (outcome : JobOutcome)

def Stage.place : Stage → Nat
  | turning r | acting r _ _ | closing r => r.place
  | reported place _ => place

structure Board where
  waiting : List (Nat × PlannedJob)
  stages : Multiset Stage
  aborted : Bool
  log : List Event

namespace Board

def put (b : Board) (x : Stage) : Board :=
  { b with stages := x ::ₘ b.stages }

def putAll (b : Board) (xs : List Stage) : Board :=
  { b with stages := ↑xs + b.stages }

theorem putAll_nil (b : Board) : b.putAll [] = b := by
  simp only [putAll, Multiset.coe_nil, zero_add]

theorem putAll_singleton (b : Board) (x : Stage) : b.putAll [x] = b.put x := by
  simp only [putAll, put, Multiset.coe_singleton, Multiset.singleton_add]

def record (b : Board) (time : Nat) (place : Option Nat) (what : Happening) : Board :=
  { b with log := b.log ++ [⟨time, place, what⟩] }

def raise (b : Board) (flag : Bool) : Board :=
  { b with aborted := b.aborted || flag }

/-- A step of one job, the rest of the board left as it is, or a request to
    cancel.  Only a lossy board loses jobs. -/
inductive Step (w : World) (failFast lossy : Bool) : Board → Board → Prop
  | refuse {b : Board} {place : Nat} {job : PlannedJob} {t : Nat} (aborted : b.aborted = true) :
      Step w failFast lossy { b with waiting := (place, job) :: b.waiting }
        ((b.put (.reported place job.cancelled)).record t place (.jobFinish job job.cancelled))
  | start {b : Board} {place : Nat} {job : PlannedJob} {t : Nat} (aborted : b.aborted = false) :
      Step w failFast lossy { b with waiting := (place, job) :: b.waiting }
        ((b.put (.turning ⟨place, job, JobState.start job, job.steps⟩)).record t place
          (.jobStart job))
  | settle {b : Board} {r : Running} {step : PlannedStep} {rest : List PlannedStep} {s : JobState}
      {result : StepResult} {t : Nat} (next : r.rest = step :: rest)
      (turn : r.state.turn r.job b.aborted step = .settled s)
      (last : s.results.getLast? = some result) :
      Step w failFast lossy (b.put (.turning r))
        ((b.put (.turning { r with state := s, rest })).record t r.place
          (.stepFinish r.job result))
  | begin {b : Board} {r : Running} {step prepared : PlannedStep} {rest : List PlannedStep}
      {s : JobState} {t : Nat} (next : r.rest = step :: rest)
      (turn : r.state.turn r.job b.aborted step = .started s prepared) :
      Step w failFast lossy (b.put (.turning r))
        (((b.put (.acting { r with state := s, rest } step
          (w.behaviour { r with state := s, rest } prepared))).record t r.place
          (.stepStart r.job prepared)).record t r.place (.actionStart r.job prepared s.context))
  | ended {b : Board} {r : Running} {step : PlannedStep} {how : Behaviour} {t : Nat} :
      Step w failFast lossy (b.put (.acting r step how))
        ((b.put (.acting r step how)).record t r.place (.actionEnd r.job step how.output))
  | complete {b : Board} {r : Running} {step : PlannedStep} {how : Behaviour} {result : StepResult}
      {t : Nat} (last : (r.state.complete step how.ending.result).results.getLast? = some result) :
      Step w failFast lossy (b.put (.acting r step how))
        ((b.put (.turning { r with state := r.state.complete step how.ending.result })).record t
          r.place (.stepFinish r.job result))
  | close {b : Board} {r : Running} (next : r.rest = []) :
      Step w failFast lossy (b.put (.turning r)) (b.put (.closing r))
  | report {b : Board} {r : Running} {t : Nat} :
      Step w failFast lossy (b.put (.closing r))
        (((b.put (.reported r.place (r.state.outcome r.job))).record t r.place
          (.jobFinish r.job (r.state.outcome r.job))).raise
          (failFast && (r.state.outcome r.job).status = .failed))
  | abort {b : Board} {t : Nat} :
      Step w failFast lossy b ((b.record t none .abort).raise w.listens)
  | balk {b : Board} {r : Running} {step prepared : PlannedStep} {rest : List PlannedStep}
      {s : JobState} {t : Nat} (fails : lossy = true) (next : r.rest = step :: rest)
      (turn : r.state.turn r.job b.aborted step = .started s prepared) :
      Step w failFast lossy (b.put (.turning r))
        (b.record t r.place (.stepStart r.job prepared))
  | lose {b : Board} {x : Stage} (fails : lossy = true) : Step w failFast lossy (b.put x) b

abbrev Steps (w : World) (failFast lossy : Bool) : Board → Board → Prop :=
  Relation.ReflTransGen (Step w failFast lossy)

theorem Step.mono {w : World} {failFast lossy lossy' : Bool} {b b' : Board}
    (h : Step w failFast lossy b b') (more : lossy = true → lossy' = true) :
    Step w failFast lossy' b b' := by
  cases h with
  | refuse aborted => exact .refuse aborted
  | start aborted => exact .start aborted
  | settle next turn last => exact .settle next turn last
  | begin next turn => exact .begin next turn
  | ended => exact .ended
  | complete last => exact .complete last
  | close next => exact .close next
  | report => exact .report
  | abort => exact .abort
  | balk fails next turn => exact .balk (more fails) next turn
  | lose fails => exact .lose (more fails)

theorem Steps.mono {w : World} {failFast lossy lossy' : Bool} {b b' : Board}
    (h : Steps w failFast lossy b b') (more : lossy = true → lossy' = true) :
    Steps w failFast lossy' b b' := by
  induction h with
  | refl => exact .refl
  | tail _ step ih => exact ih.tail (step.mono more)

end Board

def Task.stages : Task → List Stage
  | next => []
  | advance r => [.turning r]
  | act r step b _ => [.acting r step b]
  | report r => [.closing r]

def Alarm.stages : Alarm → List Stage
  | abort => []
  | actionEnd r step b => [.acting r step b]

namespace Pool

def stages (p : Pool) : Multiset Stage :=
  ↑(p.ready.flatMap Task.stages) + ↑(p.timers.flatMap fun t => t.alarm.stages)
    + ↑(p.outcomes.map fun entry => Stage.reported entry.1 entry.2)

def board (p : Pool) : Board :=
  ⟨p.waiting, p.stages, p.aborted, p.log⟩

/-! ## Operations on the board -/

theorem board_record (p : Pool) (place : Option Nat) (what : Happening) :
    (p.record place what).board = p.board.record p.clock place what := rfl

theorem board_goOn (p : Pool) (t : Task) : (p.goOn t).board = p.board.putAll t.stages := by
  simp only [board, Board.putAll, stages, goOn, List.flatMap_cons, ← Multiset.coe_add]
  congr 1
  abel

theorem board_lineUp (p : Pool) (t : Task) : (p.lineUp t).board = p.board.putAll t.stages := by
  simp only [board, Board.putAll, stages, lineUp, List.flatMap_append, List.flatMap_cons,
    List.flatMap_nil, List.append_nil, ← Multiset.coe_add]
  congr 1
  abel

theorem board_setTimer (p : Pool) (delay : Nat) (a : Alarm) :
    (p.setTimer delay a).board = p.board.putAll a.stages := by
  simp only [board, Board.putAll, stages, setTimer, List.flatMap_append, List.flatMap_cons,
    List.flatMap_nil, List.append_nil, ← Multiset.coe_add]
  congr 1
  abel

theorem board_finish (p : Pool) (place : Nat) (job : PlannedJob) (o : JobOutcome) :
    (p.finish place job o).board =
      (p.board.put (.reported place o)).record p.clock place (.jobFinish job o) := by
  simp only [board, Board.put, stages, finish, List.map_append, List.map_cons, List.map_nil,
    ← Multiset.coe_add, Multiset.coe_singleton, ← Multiset.singleton_add]
  simp only [record, Board.record]
  congr 1
  abel

theorem board_of_ready {p : Pool} {before after : List Task} {t : Task}
    (ready : p.ready = before ++ t :: after) :
    p.board = ({ p with ready := before ++ after } : Pool).board.putAll t.stages := by
  simp only [board, Board.putAll, stages, ready, List.flatMap_append, List.flatMap_cons,
    ← Multiset.coe_add]
  congr 1
  abel

theorem board_of_timers {p : Pool} {before after : List Timer} {t : Timer} (time : Nat)
    (timers : p.timers = before ++ t :: after) :
    p.board = ({ p with timers := before ++ after, clock := time } : Pool).board.putAll
      t.alarm.stages := by
  simp only [board, Board.putAll, stages, timers, List.flatMap_append, List.flatMap_cons,
    ← Multiset.coe_add]
  congr 1
  abel

theorem board_goOn_advance (p : Pool) (r : Running) :
    (p.goOn (.advance r)).board = p.board.put (.turning r) := by
  rw [board_goOn, Task.stages, Board.putAll_singleton]

theorem board_goOn_next (p : Pool) : (p.goOn .next).board = p.board := by
  rw [board_goOn, Task.stages, Board.putAll_nil]

section Moves

variable (w : World) (failFast : Bool) (p : Pool)

theorem step_abort {lossy : Bool} : Board.Step w failFast lossy p.board (p.abort w).board :=
  .abort

theorem step_report {lossy : Bool} (r : Running) :
    Board.Step w p.failFast lossy (p.board.put (.closing r)) (p.report r).board := by
  have told : (p.report r).board =
      ((p.board.put (.reported r.place (r.state.outcome r.job))).record p.clock r.place
        (.jobFinish r.job (r.state.outcome r.job))).raise
        (p.failFast && (r.state.outcome r.job).status = .failed) := by
    unfold report
    rw [board_goOn_next, ← board_finish]
    rfl
  rw [told]
  exact .report

theorem steps_takeJob {lossy : Bool} :
    Board.Steps w failFast lossy p.board p.takeJob.board := by
  unfold takeJob
  split
  · exact .refl
  · next place job waiting first =>
      have taken : p.board = { ({ p with waiting } : Pool).board with
          waiting := (place, job) :: waiting } := by
        simp only [board, ← first]
        rfl
      rw [taken]
      dsimp only
      split
      · next aborted =>
          rw [board_goOn_next, board_finish]
          exact .single (Board.Step.refuse (b := ({ p with waiting } : Pool).board) aborted)
      · next aborted =>
          rw [board_goOn_advance, board_record]
          exact .single (Board.Step.start (b := ({ p with waiting } : Pool).board)
            (Bool.eq_false_of_not_eq_true aborted))

/-- A worker goes on with a job whose step is settled, or it loses the job. -/
theorem steps_settled {r : Running} {result : StepResult}
    (last : r.state.results.getLast? = some result) :
    Board.Steps w failFast (p.settled w r).failure.isSome
      ((p.board.put (.turning r)).record p.clock r.place (.stepFinish r.job result))
      (p.settled w r).board := by
  unfold settled
  simp only [last]
  split
  · exact .single (Board.Step.lose (b := p.board.record p.clock r.place (.stepFinish r.job result))
      (x := .turning r) rfl)
  · rw [board_goOn_advance]
    exact .refl

theorem steps_complete (r : Running) (step : PlannedStep) (how : Behaviour) :
    Board.Steps w failFast (p.complete w r step how).failure.isSome
      (p.board.put (.acting r step how)) (p.complete w r step how).board := by
  obtain ⟨state, results⟩ := r.state.results_complete step how.ending.result
  have last : (r.state.complete step how.ending.result).results.getLast? =
      some (step.result state) := by
    rw [results, List.getLast?_concat]
  exact .head (.complete last) (steps_settled w failFast p last)

theorem steps_await (r : Running) (step : PlannedStep) (how : Behaviour) :
    Board.Steps w failFast (p.await w r step how).failure.isSome
      (p.board.put (.acting r step how)) (p.await w r step how).board := by
  unfold await
  split
  · rw [board_setTimer, Alarm.stages, Board.putAll_singleton]
  · exact steps_complete w failFast p r step how

theorem steps_begin {r : Running} {step prepared : PlannedStep} {rest : List PlannedStep}
    {s : JobState} (next : r.rest = step :: rest)
    (turn : r.state.turn r.job p.aborted step = .started s prepared) :
    Board.Steps w failFast (p.begin w { r with state := s, rest } step prepared).failure.isSome
      (p.board.put (.turning r)) (p.begin w { r with state := s, rest } step prepared).board := by
  let told := (p.record r.place (.stepStart r.job prepared)).record r.place
    (.actionStart r.job prepared s.context)
  let begun : Running := { r with state := s, rest }
  have started {lossy : Bool} : Board.Step w failFast lossy (p.board.put (.turning r))
      (told.board.put (.acting begun step (w.behaviour begun prepared))) :=
    Board.Step.begin (t := p.clock) next turn
  unfold begin
  dsimp only
  split
  · exact .single (Board.Step.balk (t := p.clock) rfl next turn)
  · split
    · exact .head started (steps_await w failFast told begun step _)
    · rw [board_lineUp, Task.stages, Board.putAll_singleton]
      exact .single started

theorem steps_advance (r : Running) :
    Board.Steps w failFast (p.advance w r).failure.isSome (p.board.put (.turning r))
      (p.advance w r).board := by
  unfold advance
  split
  · next none =>
      rw [board_lineUp, Task.stages, Board.putAll_singleton]
      exact .single (.close none)
  · next step rest next =>
      split
      · next s turn =>
          obtain ⟨state, results⟩ := JobState.results_of_settled turn
          have last : s.results.getLast? = some (step.result state) := by
            rw [results, List.getLast?_concat]
          exact .head (.settle next turn last) (steps_settled w failFast p last)
      · next s prepared turn => exact steps_begin w failFast p next turn

theorem steps_perform (t : Task) :
    Board.Steps w p.failFast (p.perform w t).failure.isSome (p.board.putAll t.stages)
      (p.perform w t).board := by
  match t with
  | .next =>
      rw [Task.stages, Board.putAll_nil]
      exact steps_takeJob w p.failFast p
  | .advance r =>
      rw [Task.stages, Board.putAll_singleton]
      exact steps_advance w p.failFast p r
  | .act r step how 0 =>
      rw [Task.stages, Board.putAll_singleton]
      exact steps_await w p.failFast p r step how
  | .act r step how (more + 1) =>
      rw [perform, board_lineUp]
      exact .refl
  | .report r =>
      rw [Task.stages, Board.putAll_singleton]
      exact .single (step_report w p r)

theorem steps_fire (a : Alarm) :
    Board.Steps w failFast (p.fire w a).failure.isSome (p.board.putAll a.stages)
      (p.fire w a).board := by
  match a with
  | .abort =>
      rw [Alarm.stages, Board.putAll_nil]
      exact .single (step_abort w failFast p)
  | .actionEnd r step how =>
      rw [Alarm.stages, Board.putAll_singleton]
      let told := p.record r.place (.actionEnd r.job step how.output)
      have ended {lossy : Bool} : Board.Step w failFast lossy (p.board.put (.acting r step how))
          (told.board.put (.acting r step how)) :=
        Board.Step.ended (t := p.clock)
      simp only [fire]
      split
      · have aborted {lossy : Bool} : Board.Step w failFast lossy
            (told.board.put (.acting r step how)) ((told.abort w).board.put (.acting r step how)) :=
          Board.Step.abort (t := p.clock)
        exact .head ended (.head aborted (steps_complete w failFast _ r step how))
      · exact .head ended (steps_complete w failFast told r step how)

end Moves

/-! ## Moves on the board -/

section Reaches

variable {w : World} {p q : Pool}

theorem steps_of_move (h : Move w p q) :
    Board.Steps w p.failFast q.failure.isSome p.board q.board := by
  cases h with
  | @perform before after t ready =>
      rw [board_of_ready ready]
      exact steps_perform w { p with ready := before ++ after } t
  | fire time timers =>
      rw [board_of_timers time timers]
      exact steps_fire w p.failFast _ _
  | abort => exact .single (step_abort w p.failFast p)

/-- Whatever the order of its moves, a run takes steps on its board, and it
    loses no job unless an observer fails. -/
theorem steps_of_reaches (h : Reaches w p q) :
    Board.Steps w p.failFast q.failure.isSome p.board q.board := by
  induction h with
  | refl => exact .refl
  | tail moves move ih =>
      have steps := steps_of_move move
      rw [(keeps_of_reaches moves).failFast] at steps
      exact (ih.mono (keeps_of_move move).failure).trans steps

end Reaches

end Pool

end JobMatrix.Run
