import JobMatrix.Proofs.Run.Cancellation

/-! # A job alone

A job that runs by itself sees from some turn on that it is cancelled, or never
does, and nothing else of the world but how its actions end.  Among other jobs
it is no different: that is what the story of a job says, in a run of one job
as in a run of many.
-/

namespace JobMatrix

namespace JobState

def Turn.settledBy (how : JobState → PlannedStep → ActionEnd) (step : PlannedStep) :
    Turn → JobState
  | settled s => s
  | started s prepared => s.complete step (how s prepared).result

theorem runSteps_cons (place : Nat) (job : PlannedJob) (act : Running → PlannedStep → ActionEnd)
    (aborted : Nat → Bool) (i : Nat) (s : JobState) (step : PlannedStep)
    (rest : List PlannedStep) :
    s.runSteps place job act aborted i (step :: rest) =
      ((s.turn job (aborted i) step).settledBy
        (fun s prepared => act ⟨place, job, s, rest⟩ prepared) step).runSteps place job act aborted
        (i + 1) rest := by
  rw [runSteps]
  cases s.turn job (aborted i) step with
  | settled s => rfl
  | started s prepared => rfl

/-- Steps see no more of the world than the results of their actions. -/
theorem runSteps_congr {place : Nat} {job : PlannedJob}
    {act act' : Running → PlannedStep → ActionEnd}
    (same : ∀ r step, (act r step).result = (act' r step).result) (aborted : Nat → Bool) (i : Nat)
    (s : JobState) (rest : List PlannedStep) :
    s.runSteps place job act aborted i rest = s.runSteps place job act' aborted i rest := by
  induction rest generalizing i s with
  | nil => rfl
  | cons step rest ih => simp only [runSteps, same, ih]

end JobState

namespace Run

def World.endings (w : World) (r : Running) (step : PlannedStep) : ActionEnd :=
  (w.behaviour r step).ending

/-- The same world for a run that listens to no request to cancel, and that
    nobody observes. -/
def World.deaf (w : World) : World :=
  { w with listens := false, observer := none }

/-- A job under way that ends, left to itself, as it does alone: it has had `i`
    turns, and at those from the `k`-th on the run was cancelled. -/
def Along (w : World) (place : Nat) (job : PlannedJob) (aborted : Bool) (r : Running) : Prop :=
  ∃ i k, i + r.rest.length = job.steps.length ∧ (aborted = false → i ≤ k) ∧
    ∀ flags : Nat → Bool, (∀ j < i, flags j = decide (k ≤ j)) →
      (JobState.start job).runSteps place job w.endings flags 0 job.steps =
        r.state.runSteps place job w.endings flags i r.rest

section Along

variable {w : World} {place : Nat} {job : PlannedJob}

theorem Along.start (aborted : Bool) :
    Along w place job aborted ⟨place, job, JobState.start job, job.steps⟩ :=
  ⟨0, 0, Nat.zero_add _, fun _ => Nat.le_refl _, fun _ _ => rfl⟩

theorem Along.raised {r : Running} (h : Along w place job false r) :
    Along w place job true r := by
  obtain ⟨i, k, position, -, same⟩ := h
  exact ⟨i, k, position, nofun, same⟩

theorem Along.turn {aborted : Bool} {r : Running} {step : PlannedStep} {rest : List PlannedStep}
    {s : JobState} (h : Along w place job aborted r) (next : r.rest = step :: rest)
    (turn : s = (r.state.turn job aborted step).settledBy
      (fun s prepared => w.endings ⟨place, job, s, rest⟩ prepared) step) :
    Along w place job aborted { r with state := s, rest } := by
  obtain ⟨i, k, position, unaborted, same⟩ := h
  rw [next, List.length_cons] at position
  -- The first cancelled turn stays where it is, or is this one, or is still to come.
  obtain ⟨k', agree, now, after⟩ : ∃ k', (∀ j < i, decide (k' ≤ j) = decide (k ≤ j)) ∧
      decide (k' ≤ i) = aborted ∧ (aborted = false → i + 1 ≤ k') := by
    cases aborted with
    | false =>
        have := unaborted rfl
        refine ⟨max k (i + 1), fun j before => ?_, ?_, fun _ => Nat.le_max_right _ _⟩
        · rw [decide_eq_decide]
          omega
        · exact decide_eq_false (by omega)
    | true =>
        refine ⟨min k i, fun j before => ?_, ?_, nofun⟩
        · rw [decide_eq_decide]
          omega
        · exact decide_eq_true (by omega)
  have moved : i + 1 + rest.length = job.steps.length := by omega
  refine ⟨i + 1, k', moved, after, fun flags given => ?_⟩
  have flag : flags i = aborted := (given i (Nat.lt_succ_self i)).trans now
  rw [same flags fun j before => (given j (Nat.lt_succ_of_lt before)).trans (agree j before), next,
    JobState.runSteps_cons, flag, turn]

def Stage.Along (w : World) (place : Nat) (job : PlannedJob) (aborted : Bool) : Stage → Prop
  | turning r => Run.Along w place job aborted r
  | acting r step how =>
      Run.Along w place job aborted { r with state := r.state.complete step how.ending.result }
  | closing r => Run.Along w place job aborted r ∧ r.rest = []
  | reported _ o => ∃ k, (aborted = false → job.steps.length ≤ k) ∧
      ∀ flags : Nat → Bool, (∀ j < job.steps.length, flags j = decide (k ≤ j)) →
        o = job.runAlone place w.endings flags

theorem Along.reported {aborted : Bool} {r : Running} (h : Along w place job aborted r)
    (none : r.rest = []) :
    Stage.Along w place job aborted (.reported place (r.state.outcome job)) := by
  obtain ⟨i, k, position, unaborted, same⟩ := h
  rw [none, List.length_nil, Nat.add_zero] at position
  subst position
  refine ⟨k, unaborted, fun flags given => ?_⟩
  rw [PlannedJob.runAlone, same flags given, none, JobState.runSteps]

/-- A job is refused, or it goes the way that it goes alone. -/
theorem Story.along {aborted : Bool} {told : List Happening} {x : Stage}
    (h : Story w place job aborted told x) :
    told = [.jobFinish job job.cancelled] ∧ x = .reported place job.cancelled ∨
      x.Along w place job aborted := by
  induction h with
  | refused => exact .inl ⟨rfl, rfl⟩
  | started => exact .inr (Along.start false)
  | @settled aborted told r step rest s result before next turn last ih =>
      rcases ih with ⟨-, impossible⟩ | along
      · cases impossible
      · obtain ⟨-, rfl⟩ := before.isOf
        refine .inr (Along.turn (r := r) along next ?_)
        rw [turn]
        rfl
  | @begun aborted told r step prepared rest s before next turn ih =>
      rcases ih with ⟨-, impossible⟩ | along
      · cases impossible
      · obtain ⟨rfl, rfl⟩ := before.isOf
        refine .inr (Along.turn (r := r) along next ?_)
        rw [turn]
        rfl
  | ended _ ih | completed _ _ ih =>
      rcases ih with ⟨-, impossible⟩ | along
      · cases impossible
      · exact .inr along
  | closed _ none ih =>
      rcases ih with ⟨-, impossible⟩ | along
      · cases impossible
      · exact .inr ⟨along, none⟩
  | reported before ih =>
      rcases ih with ⟨-, impossible⟩ | ⟨along, none⟩
      · cases impossible
      · obtain ⟨rfl, rfl⟩ := before.isOf
        exact .inr (along.reported none)
  | @raised told x before ih =>
      rcases ih with refused | along
      · exact .inl refused
      · right
        cases x with
        | turning r | acting r step how => exact Along.raised along
        | closing r => exact ⟨along.1.raised, along.2⟩
        | reported at' o =>
            obtain ⟨k, -, same⟩ := along
            exact ⟨k, nofun, same⟩

/-- In a run that is not cancelled a job goes the way that it goes alone. -/
theorem Story.along_of_unaborted {told : List Happening} {x : Stage}
    (h : Story w place job false told x) : x.Along w place job false := by
  rcases h.along with ⟨refused, -⟩ | along
  · rcases h.refused_or_started with ⟨impossible, -⟩ | ⟨rest, started⟩
    · cases impossible
    · rw [refused] at started
      cases started
  · exact along

/-- A job that is never cancelled ends as it does alone. -/
theorem Stage.Along.outcome {at' : Nat} {o : JobOutcome}
    (h : Stage.Along w place job false (.reported at' o)) :
    o = job.runAlone place w.endings fun _ => false := by
  obtain ⟨k, never, same⟩ := h
  apply same
  intro j inside
  have := never rfl
  exact (decide_eq_false (by omega)).symm

end Along

/-! ## A job by itself -/

namespace Board

/-- The same board behind something that has happened before. -/
def after (e : Event) (b : Board) : Board :=
  { b with log := e :: b.log }

theorem step_after {w : World} {failFast lossy : Bool} {b b' : Board} (e : Event)
    (step : Step w failFast lossy b b') : Step w failFast lossy (b.after e) (b'.after e) := by
  cases step with
  | @refuse b place job t aborted => exact Step.refuse (b := b.after e) aborted
  | @start b place job t aborted => exact Step.start (b := b.after e) aborted
  | @settle b r step rest s result t next turn last =>
      exact Step.settle (b := b.after e) next turn last
  | @begin b r step prepared rest s t next turn => exact Step.begin (b := b.after e) next turn
  | @ended b => exact Step.ended (b := b.after e)
  | @complete b r step how result t last => exact Step.complete (b := b.after e) last
  | @close b r none => exact Step.close (b := b.after e) none
  | @report b => exact Step.report (b := b.after e)
  | abort => exact Step.abort (b := b.after e)
  | @balk b r step prepared rest s t fails next turn =>
      exact Step.balk (b := b.after e) fails next turn
  | lose fails => exact Step.lose (b := b'.after e) fails

theorem steps_after {w : World} {failFast lossy : Bool} {b b' : Board} (e : Event)
    (steps : Steps w failFast lossy b b') : Steps w failFast lossy (b.after e) (b'.after e) := by
  induction steps with
  | refl => exact .refl
  | tail _ step ih => exact ih.tail (step_after e step)

/-- A run that listens to no request and is not fail-fast is never cancelled. -/
theorem aborted_steps {w : World} (deaf : w.listens = false) {lossy : Bool} {b b' : Board}
    (steps : Steps w false lossy b b') : b'.aborted = b.aborted := by
  induction steps with
  | refl => rfl
  | tail _ step ih =>
      rw [← ih]
      cases step with
      | report => exact Bool.or_false _
      | abort => exact (congrArg _ deaf).trans (Bool.or_false _)
      | _ => rfl

end Board

namespace Pool

theorem told_ofJob (w : World) (place : Nat) (job : PlannedJob) (aborted : Bool)
    (abortAt : Option Nat) :
    ((ofJob place job aborted abortAt).board.after ⟨0, some place, .jobStart job⟩).Told w
      fun i => if i = place then some job else none := by
  have alone : (ofJob place job aborted abortAt).stages =
      {.turning ⟨place, job, JobState.start job, job.steps⟩} := by
    simp only [stages, ofJob, abortTimers]
    split <;> simp [Task.stages, Alarm.stages]
  refine ⟨?_, fun entry member => absurd member List.not_mem_nil, fun x member => ?_⟩
  · simp only [Board.places, Board.after, board, alone, Multiset.map_singleton]
    exact Multiset.nodup_singleton place
  · simp only [Board.after, board, alone, Multiset.mem_singleton] at member
    subst member
    refine ⟨job, if_pos rfl, ?_⟩
    have story : Story w place job false [.jobStart job]
        (.turning ⟨place, job, JobState.start job, job.steps⟩) := .started
    simpa [happenings, Board.after, board, ofJob, Stage.place] using story.raise aborted

end Pool

section Alone

variable {w : World} {place : Nat} {job : PlannedJob}

/-- When the run of one job is over, the job has an outcome, and the log tells
    the story that leads there. -/
theorem story_of_ofJob {aborted : Bool} {abortAt : Option Nat} {p : Pool}
    (reached : Pool.Reaches w (Pool.ofJob place job aborted abortAt) p) (ok : p.failure = none)
    (ended : p.IsOver) : ∃ o, p.outcomeAt? place = some o ∧
      Story w place job p.aborted (.jobStart job :: happenings p.log place)
        (.reported place o) := by
  have steps := Pool.steps_of_reaches reached
  rw [ok] at steps
  have told := (Pool.told_ofJob w place job aborted abortAt).steps (Board.steps_after _ steps)
  have none : p.waiting = [] := List.suffix_nil.mp (Board.waiting_steps steps)
  have member : place ∈ p.board.places := by
    rw [Board.places_steps steps]
    simp [Board.places, Pool.board, Pool.stages, Pool.ofJob, Task.stages, Stage.place]
  obtain ⟨o, present, story⟩ := Pool.story_of_told ended told none member (if_pos rfl)
  refine ⟨o, present, ?_⟩
  have all : happenings (Board.after ⟨0, some place, .jobStart job⟩ p.board).log place =
      .jobStart job :: happenings p.log place := by
    simp [happenings, Board.after, Pool.board]
  rw [← all]
  exact story

/-- Whatever the order of the moves, a job that runs by itself has the outcome
    that `runAlone` gives, for a request to cancel that is there from some turn
    on. -/
theorem eq_runAlone_of_ofJob {aborted : Bool} {abortAt : Option Nat} {p : Pool}
    (reached : Pool.Reaches w (Pool.ofJob place job aborted abortAt) p) (ok : p.failure = none)
    (ended : p.IsOver) : ∃ k,
      p.outcomeAt? place = some (job.runAlone place w.endings fun i => decide (k ≤ i)) := by
  obtain ⟨o, present, story⟩ := story_of_ofJob reached ok ended
  rcases story.along with ⟨impossible, -⟩ | ⟨k, -, same⟩
  · cases impossible
  · exact ⟨k, by rw [present, same _ fun j _ => rfl]⟩

/-- Without a signal no request to cancel is ever there. -/
theorem runJob_deaf (w : World) (place : Nat) (job : PlannedJob) (c : Cancellation) : ∃ log,
    runJob w.deaf place job c = .ok ⟨log, some (job.runAlone place w.endings fun _ => false)⟩ := by
  let first := Pool.ofJob place job (c.aborted && w.deaf.listens) c.abortAt
  have reached : Pool.Reaches w.deaf first (first.run w.deaf) := Pool.reaches_run w.deaf first
  have ok : (first.run w.deaf).failure = none := Pool.failure_of_reaches rfl reached
  obtain ⟨o, present, story⟩ := story_of_ofJob reached ok (Pool.isOver_run rfl rfl)
  have unaborted : (first.run w.deaf).aborted = false :=
    (Board.aborted_steps rfl (Pool.steps_of_reaches reached)).trans (Bool.and_false c.aborted)
  rw [unaborted] at story
  refine ⟨(first.run w.deaf).log.filter (·.what.isOfSteps), ?_⟩
  simp only [runJob]
  split
  · next message failed => exact absurd (ok.symm.trans failed) (by simp)
  · rw [present, story.along_of_unaborted.outcome]
    rfl

end Alone

/-! ## A job that others cancel -/

/-- The same world for a run that others may cancel at any moment, but no
    action does, and that nobody observes. -/
def World.cancellable (w : World) : World :=
  { w with
    listens := true
    behaviour := fun r step => { w.behaviour r step with aborts := false }
    observer := none }

/-- A job by itself can end in this way, if others may cancel it at any
    moment. -/
def EndsAlone (w : World) (place : Nat) (job : PlannedJob) (o : JobOutcome) : Prop :=
  ∃ p : Pool, Pool.Reaches w.cancellable (Pool.ofJob place job false none) p ∧ p.IsOver ∧
    p.outcomeAt? place = some o

namespace Pool

/-- The state of a run of one job, before its outcome. -/
structure Holds (tasks : List Task) (aborted : Bool) (p : Pool) : Prop where
  ready : p.ready = tasks
  timers : p.timers = []
  waiting : p.waiting = []
  outcomes : p.outcomes = []
  aborted : p.aborted = aborted

theorem Holds.record {tasks : List Task} {aborted : Bool} {p : Pool} (h : p.Holds tasks aborted)
    (place : Option Nat) (what : Happening) : (p.record place what).Holds tasks aborted :=
  ⟨h.ready, h.timers, h.waiting, h.outcomes, h.aborted⟩

theorem Holds.goOn {aborted : Bool} {p : Pool} (h : p.Holds [] aborted) (t : Task) :
    (p.goOn t).Holds [t] aborted :=
  ⟨congrArg (t :: ·) h.ready, h.timers, h.waiting, h.outcomes, h.aborted⟩

theorem Holds.lineUp {aborted : Bool} {p : Pool} (h : p.Holds [] aborted) (t : Task) :
    (p.lineUp t).Holds [t] aborted :=
  ⟨congrArg (· ++ [t]) h.ready, h.timers, h.waiting, h.outcomes, h.aborted⟩

theorem Holds.taken {task : Task} {aborted : Bool} {p : Pool} (h : p.Holds [task] aborted) :
    ({ p with ready := [] } : Pool).Holds [] aborted :=
  ⟨rfl, h.timers, h.waiting, h.outcomes, h.aborted⟩

theorem Holds.perform {w : World} {task : Task} {aborted : Bool} {p : Pool}
    (h : p.Holds [task] aborted) : Move w p (({ p with ready := [] } : Pool).perform w task) :=
  @Move.perform w p [] [] task h.ready

section Quiet

variable {w : World} (quiet : w.observer = none) {aborted : Bool} {p : Pool}
include quiet

theorem Holds.settled (h : p.Holds [] aborted) (r : Running) :
    (p.settled w r).Holds [.advance r] aborted := by
  unfold Pool.settled
  split
  · exact h.goOn _
  · simp only [failureAtFinish?_eq_none quiet]
    exact (h.record _ _).goOn _

theorem reaches_await (h : p.Holds [] aborted) (r : Running) (step : PlannedStep)
    {how : Behaviour} (silent : how.aborts = false) :
    ∃ q, Reaches w (p.await w r step how) q ∧
      q.Holds [.advance { r with state := r.state.complete step how.ending.result }] aborted := by
  unfold await
  split
  · next delay _ =>
      have set : (p.setTimer delay (.actionEnd r step how)).timers =
          [] ++ ⟨p.clock + delay, .actionEnd r step how⟩ :: [] := by
        simp only [setTimer, h.timers, List.nil_append]
      refine ⟨_, .single (.fire (p.clock + delay) set), ?_⟩
      simp only [fire, silent, Bool.false_eq_true, if_false]
      apply Holds.settled quiet
      exact ⟨h.ready, rfl, h.waiting, h.outcomes, h.aborted⟩
  · exact ⟨_, .refl, h.settled quiet _⟩

theorem reaches_act {r : Running} {step : PlannedStep} {how : Behaviour}
    (silent : how.aborts = false) {more : Nat} (h : p.Holds [.act r step how more] aborted) :
    ∃ q, Reaches w p q ∧
      q.Holds [.advance { r with state := r.state.complete step how.ending.result }] aborted := by
  induction more generalizing p with
  | zero =>
      obtain ⟨q, goesOn, holds⟩ := reaches_await quiet h.taken r step silent
      exact ⟨q, .head h.perform goesOn, holds⟩
  | succ more ih =>
      obtain ⟨q, goesOn, holds⟩ := ih (h.taken.lineUp (.act r step how more))
      exact ⟨q, .head h.perform goesOn, holds⟩

theorem reaches_turn (silent : ∀ r step, (w.behaviour r step).aborts = false) {r : Running}
    {step : PlannedStep} {rest : List PlannedStep} (h : p.Holds [.advance r] aborted)
    (next : r.rest = step :: rest) :
    ∃ q, Reaches w p q ∧
      q.Holds [.advance ⟨r.place, r.job, (r.state.turn r.job aborted step).settledBy
        (fun s prepared => w.endings ⟨r.place, r.job, s, rest⟩ prepared) step, rest⟩] aborted := by
  obtain rfl := h.aborted
  have move := h.perform (w := w)
  simp only [Pool.perform, advance, next] at move
  split at move
  · next s turn =>
      rw [turn]
      exact ⟨_, .single move, h.taken.settled quiet { r with state := s, rest }⟩
  · next s prepared turn =>
      rw [turn]
      let begun : Running := { r with state := s, rest }
      have told := (h.taken.record r.place (.stepStart r.job prepared)).record r.place
        (.actionStart r.job prepared s.context)
      simp only [begin, failureAtStart?_eq_none quiet] at move
      split at move
      · obtain ⟨q, goesOn, holds⟩ := reaches_await quiet told begun step (silent begun prepared)
        exact ⟨q, .head move goesOn, holds⟩
      · next more _ =>
          obtain ⟨q, goesOn, holds⟩ := reaches_act quiet (silent begun prepared)
            (told.lineUp (.act begun step (w.behaviour begun prepared) more))
          exact ⟨q, .head move goesOn, holds⟩

/-- A job by itself takes all its turns, cancelled from the `k`-th on. -/
theorem reaches_runSteps (listens : w.listens = true)
    (silent : ∀ r step, (w.behaviour r step).aborts = false) (place : Nat) (job : PlannedJob)
    (k i : Nat) (s : JobState) (rest : List PlannedStep)
    (h : p.Holds [.advance ⟨place, job, s, rest⟩] aborted) (before : aborted = true → k ≤ i) :
    ∃ q last, Reaches w p q ∧
      q.Holds [.advance ⟨place, job,
        s.runSteps place job w.endings (fun j => decide (k ≤ j)) i rest, []⟩] last := by
  induction rest generalizing p aborted i s with
  | nil => exact ⟨p, aborted, .refl, h⟩
  | cons step rest ih =>
      -- The request arrives right before the `k`-th turn; once there, it stays.
      obtain ⟨p', first, h⟩ : ∃ p', Reaches w p p' ∧
          p'.Holds [.advance ⟨place, job, s, step :: rest⟩] (decide (k ≤ i)) := by
        by_cases cancelled : k ≤ i
        · refine ⟨p.abort w, .single .abort, h.ready, h.timers, h.waiting, h.outcomes, ?_⟩
          simp only [abort, listens, Bool.or_true, cancelled, decide_true]
        · have unaborted : aborted = false := by
            by_contra raised
            exact cancelled (before (Bool.eq_true_of_not_eq_false raised))
          rw [unaborted] at h
          rw [decide_eq_false cancelled]
          exact ⟨p, .refl, h⟩
      obtain ⟨q, turned, holds⟩ := reaches_turn quiet silent h rfl
      obtain ⟨q', last, goesOn, holds⟩ := ih (i + 1) _ holds
        fun raised => Nat.le_succ_of_le (of_decide_eq_true raised)
      exact ⟨q', last, (first.trans turned).trans goesOn, holds⟩

end Quiet

/-- A job by itself whose steps are all over is reported, and its run is over. -/
theorem reaches_report {w : World} {aborted : Bool} {p : Pool} {r : Running}
    (h : p.Holds [.report r] aborted) :
    ∃ q, Reaches w p q ∧ q.IsOver ∧ q.outcomeAt? r.place = some (r.state.outcome r.job) := by
  let reported := ({ p with ready := [] } : Pool).report r
  let last : Pool := { reported with ready := [] }
  have next : reported.ready = [] ++ .next :: [] := rfl
  have none : last.takeJob = last := takeJob_eq_self h.waiting
  have leaves : Move w reported last.takeJob := .perform next
  rw [none] at leaves
  refine ⟨last, .head h.perform (.single leaves), ⟨rfl, fun t member => ?_⟩, ?_⟩
  · have timers : last.timers = [] := h.timers
    rw [timers] at member
    cases member
  · have outcomes : last.outcomes = [] ++ [(r.place, r.state.outcome r.job)] :=
      congrArg (· ++ [(r.place, r.state.outcome r.job)]) h.outcomes
    rw [outcomeAt?, outcomes]
    simp

end Pool

/-- The ways in which a job by itself can end: for every turn there is a run in
    which it is cancelled from that turn on. -/
theorem endsAlone_iff {w : World} {place : Nat} {job : PlannedJob} {o : JobOutcome} :
    EndsAlone w place job o ↔ ∃ k, o = job.runAlone place w.endings fun j => decide (k ≤ j) := by
  constructor
  · rintro ⟨p, reached, ended, outcome⟩
    obtain ⟨k, alone⟩ := eq_runAlone_of_ofJob reached (Pool.failure_of_reaches rfl reached) ended
    exact ⟨k, Option.some.inj (outcome.symm.trans alone)⟩
  · rintro ⟨k, rfl⟩
    have first : (Pool.ofJob place job false none).Holds
        [.advance ⟨place, job, JobState.start job, job.steps⟩] false := ⟨rfl, rfl, rfl, rfl, rfl⟩
    obtain ⟨p, last, turns, h⟩ := Pool.reaches_runSteps (w := w.cancellable) rfl rfl
      (fun _ _ => rfl) place job k 0 (JobState.start job) job.steps first nofun
    obtain ⟨q, report, ended, outcome⟩ := Pool.reaches_report (w := w.cancellable)
      (h.taken.lineUp (.report _))
    exact ⟨q, (turns.tail h.perform).trans report, ended, outcome⟩

end Run

end JobMatrix
