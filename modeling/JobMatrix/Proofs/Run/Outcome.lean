import JobMatrix.Proofs.Run.Settlement

/-! # The outcome of a job

The log of a job that runs by itself tells at which of its turns the run was
cancelled already.  These turns, and how the actions end, are all that the
outcome depends on, whatever the order of the moves.
-/

namespace JobMatrix.Run

/-- What the log of a job by itself has told so far. -/
structure Watch where
  cancelled : Bool
  acting : Bool
  flags : List Bool

namespace Watch

/-- A turn begins with the start of its step, or with the finish if the step
    does not start. -/
def see (w : World) (s : Watch) (e : Event) : Watch :=
  match e.what with
  | .abort => { s with cancelled := s.cancelled || w.listens }
  | .stepStart .. => { s with acting := true, flags := s.flags ++ [s.cancelled] }
  | .stepFinish .. =>
      if s.acting then { s with acting := false } else { s with flags := s.flags ++ [s.cancelled] }
  | _ => s

def ofLog (w : World) (c : Cancellation) (log : List Event) : Watch :=
  log.foldl (see w) ⟨c.aborted && w.listens, false, []⟩

theorem ofLog_concat (w : World) (c : Cancellation) (log : List Event) (e : Event) :
    ofLog w c (log ++ [e]) = (ofLog w c log).see w e := by
  rw [ofLog, List.foldl_append]
  rfl

/-- Starts and finishes of jobs tell nothing of the turns. -/
theorem ofLog_filter (w : World) (c : Cancellation) (log : List Event) :
    ofLog w c (log.filter (·.what.isOfSteps)) = ofLog w c log := by
  unfold ofLog
  generalize (⟨c.aborted && w.listens, false, []⟩ : Watch) = s
  induction log generalizing s with
  | nil => rfl
  | cons e rest ih =>
      rw [List.filter_cons, List.foldl_cons, ← ih]
      split
      · rfl
      · next other =>
          have same : s.see w e = s := by
            unfold see
            cases what : e.what <;> simp_all [Happening.isOfSteps]
          rw [same]

end Watch

def turnFlags (w : World) (c : Cancellation) (log : List Event) : List Bool :=
  (Watch.ofLog w c log).flags

/-- A job under way that has had a turn for each flag, and that ends, left to
    itself, as it does alone with these flags. -/
structure Follows (w : World) (place : Nat) (job : PlannedJob) (flags : List Bool)
    (r : Running) : Prop where
  ofPlace : r.place = place
  ofJob : r.job = job
  position : flags.length + r.rest.length = job.steps.length
  same : ∀ aborted : Nat → Bool, (∀ i < flags.length, aborted i = flags.getD i false) →
    (JobState.start job).runSteps place job w.endings aborted 0 job.steps =
      r.state.runSteps place job w.endings aborted flags.length r.rest

section Follows

variable {w : World} {place : Nat} {job : PlannedJob} {flags : List Bool} {r : Running}

theorem Follows.turn (h : Follows w place job flags r) {step : PlannedStep}
    {rest : List PlannedStep} {s : JobState} {flag : Bool} (next : r.rest = step :: rest)
    (turn : s = (r.state.turn job flag step).settledBy
      (fun s prepared => w.endings ⟨place, job, s, rest⟩ prepared) step) :
    Follows w place job (flags ++ [flag]) { r with state := s, rest } := by
  obtain ⟨rfl, rfl, position, same⟩ := h
  rw [next, List.length_cons] at position
  have moved : (flags ++ [flag]).length + rest.length = r.job.steps.length := by
    rw [List.length_append, List.length_singleton]
    omega
  refine ⟨rfl, rfl, moved, fun aborted given => ?_⟩
  have before : ∀ i < flags.length, aborted i = flags.getD i false := by
    intro i inside
    rw [given i (by simp; omega)]
    simp [List.getD, List.getElem?_append_left inside]
  have now : aborted flags.length = flag := by
    rw [given flags.length (by simp)]
    simp [List.getD]
  rw [same aborted before, next, JobState.runSteps_cons, now, turn, List.length_append]
  rfl

def Stage.Watched (w : World) (place : Nat) (job : PlannedJob) (s : Watch) : Stage → Prop
  | turning r => s.acting = false ∧ Follows w place job s.flags r
  | acting r step how => s.acting = true ∧
      Follows w place job s.flags { r with state := r.state.complete step how.ending.result }
  | closing r => Follows w place job s.flags r ∧ r.rest = []
  | reported at' o => at' = place ∧ s.flags.length = job.steps.length ∧
      o = job.runAlone place w.endings (s.flags.getD · false)

end Follows

namespace Board

/-- A board with one job, which is at what its log tells. -/
structure Watched (w : World) (c : Cancellation) (place : Nat) (job : PlannedJob)
    (b : Board) : Prop where
  waiting : b.waiting = []
  aborted : b.aborted = (Watch.ofLog w c b.log).cancelled
  stage : ∃ x, b.stages = {x} ∧ x.Watched w place job (Watch.ofLog w c b.log)

section Watched

variable {w : World} {c : Cancellation} {place : Nat} {job : PlannedJob} {b b' : Board}

theorem Watched.change {x y : Stage} (h : (b.put x).Watched w c place job)
    (waiting : b'.waiting = b.waiting) (stages : b'.stages = y ::ₘ b.stages)
    (aborted : b'.aborted = b.aborted)
    (cancelled : (Watch.ofLog w c b'.log).cancelled = (Watch.ofLog w c b.log).cancelled)
    (goOn : x.Watched w place job (Watch.ofLog w c b.log) →
      y.Watched w place job (Watch.ofLog w c b'.log)) : b'.Watched w c place job := by
  obtain ⟨x', only, watched⟩ := h.stage
  have single : {x'} = x ::ₘ b.stages := only.symm
  obtain ⟨rfl, none⟩ := (Multiset.singleton_eq_cons_iff _).mp single
  refine ⟨waiting.trans h.waiting, (aborted.trans h.aborted).trans cancelled.symm, y, ?_,
    goOn watched⟩
  rw [stages, none]
  rfl

theorem Watched.step (h : b.Watched w c place job) (step : Step w false false b b') :
    b'.Watched w c place job := by
  have waiting := h.waiting
  cases step with
  | refuse | start => cases waiting
  | @settle b r step rest s result t next turn last =>
      refine h.change (y := .turning { r with state := s, rest }) rfl rfl rfl ?_ ?_
      · simp only [Board.record, Watch.ofLog_concat, Watch.see]
        split <;> rfl
      · rintro ⟨idle, follows⟩
        have aborted : b.aborted = (Watch.ofLog w c b.log).cancelled := h.aborted
        simp only [Board.record, Board.put, Watch.ofLog_concat, Watch.see, idle,
          Bool.false_eq_true, if_false]
        refine ⟨rfl, follows.turn next ?_⟩
        rw [← aborted, ← follows.ofJob, turn]
        rfl
  | @begin b r step prepared rest s t next turn =>
      refine h.change (y := .acting { r with state := s, rest } step
        (w.behaviour { r with state := s, rest } prepared)) rfl rfl rfl ?_ ?_
      · simp only [Board.record, Watch.ofLog_concat, Watch.see]
        rfl
      · rintro ⟨idle, follows⟩
        have aborted : b.aborted = (Watch.ofLog w c b.log).cancelled := h.aborted
        simp only [Board.record, Board.put, Watch.ofLog_concat, Watch.see]
        refine ⟨rfl, follows.turn next ?_⟩
        rw [← aborted, ← follows.ofJob, ← follows.ofPlace, turn]
        rfl
  | @ended b r step how t =>
      refine h.change (y := .acting r step how) rfl rfl rfl ?_ fun watched => ?_
      · simp only [Board.record, Watch.ofLog_concat, Watch.see]
        rfl
      · simp only [Board.record, Board.put, Watch.ofLog_concat, Watch.see]
        exact watched
  | @complete b r step how result t last =>
      refine h.change (y := .turning { r with state := r.state.complete step how.ending.result })
        rfl rfl rfl ?_ ?_
      · simp only [Board.record, Watch.ofLog_concat, Watch.see]
        split <;> rfl
      · rintro ⟨acting, follows⟩
        simp only [Board.record, Board.put, Watch.ofLog_concat, Watch.see, acting]
        exact ⟨rfl, follows⟩
  | @close b r next =>
      refine h.change (y := .closing r) rfl rfl rfl rfl ?_
      rintro ⟨-, follows⟩
      exact ⟨follows, next⟩
  | @report b r t =>
      refine h.change (y := .reported r.place (r.state.outcome r.job)) rfl rfl (Bool.or_false _) ?_ ?_
      · simp only [Board.record, Board.raise, Watch.ofLog_concat, Watch.see]
        rfl
      · rintro ⟨⟨ofPlace, ofJob, position, same⟩, none⟩
        simp only [Board.record, Board.raise, Board.put, Watch.ofLog_concat, Watch.see]
        rw [none, List.length_nil, Nat.add_zero] at position
        refine ⟨ofPlace, position, ?_⟩
        rw [PlannedJob.runAlone, same _ fun _ _ => rfl, none, JobState.runSteps, ofJob]
  | @abort b t =>
      have aborted : b.aborted = (Watch.ofLog w c b.log).cancelled := h.aborted
      obtain ⟨x, only, watched⟩ := h.stage
      refine ⟨waiting, ?_, x, only, ?_⟩
      · simp only [Board.record, Board.raise, Watch.ofLog_concat, Watch.see, aborted]
      · simp only [Board.record, Board.raise, Watch.ofLog_concat, Watch.see]
        cases x <;> exact watched
  | balk fails | lose fails => cases fails

theorem Watched.steps (h : b.Watched w c place job) (steps : Steps w false false b b') :
    b'.Watched w c place job := by
  induction steps with
  | refl => exact h
  | tail _ step ih => exact ih.step step

end Watched

end Board

theorem Pool.watched_ofJob (w : World) (c : Cancellation) (place : Nat) (job : PlannedJob) :
    (Pool.ofJob place job (c.aborted && w.listens) c.abortAt).board.Watched w c place job := by
  refine ⟨rfl, rfl, .turning ⟨place, job, JobState.start job, job.steps⟩, ?_, rfl, rfl, rfl, ?_,
    fun _ _ => rfl⟩
  · simp only [board, stages, ofJob, abortTimers]
    split <;> simp [Task.stages, Alarm.stages]
  · exact Nat.zero_add _

section Runs

variable {w : World} {c : Cancellation} {place : Nat} {job : PlannedJob} {p : Pool}

variable (reached : Pool.Reaches w (Pool.ofJob place job (c.aborted && w.listens) c.abortAt) p)
  (ok : p.failure = none)
include reached ok

theorem Pool.watched_of_ofJob : p.board.Watched w c place job := by
  have steps := Pool.steps_of_reaches reached
  rw [ok] at steps
  exact (Pool.watched_ofJob w c place job).steps steps

theorem alone_of_ofJob (ended : p.IsOver) :
    (turnFlags w c p.log).length = job.steps.length ∧
      p.outcomeAt? place =
        some (job.runAlone place w.endings ((turnFlags w c p.log).getD · false)) := by
  obtain ⟨-, -, x, only, watched⟩ := Pool.watched_of_ofJob reached ok
  have only : p.stages = {x} := only
  rw [Pool.stages_of_isOver ended, Multiset.coe_eq_singleton, List.map_eq_singleton_iff] at only
  obtain ⟨⟨at', o⟩, outcomes, rfl⟩ := only
  obtain ⟨ofPlace, complete, alone⟩ := watched
  refine ⟨complete, ?_⟩
  rw [Pool.outcomeAt?, outcomes, List.find?_cons_of_pos (by simpa using ofPlace)]
  exact congrArg some alone

theorem lawful_of_ofJob (ended : p.IsOver) :
    ∃ o, p.outcomeAt? place = some o ∧ o.Lawful place job w.endings (turnFlags w c p.log) := by
  obtain ⟨complete, present⟩ := alone_of_ofJob reached ok ended
  exact ⟨_, present, PlannedJob.lawful_runAlone place w.endings complete⟩

end Runs

/-- **The outcome of a job.**  Take a job that runs by itself in any world, with
    observers that do not fail, and any moves of its run: requests to cancel
    may arrive at any time.  The run can always be brought to its end, and when
    it is over there is an outcome: one result for each step, the status and
    the fatal step that the results and the cancelled turns tell, and one
    diagnostic for each step that has met a malformed expression.  `runJob`
    gives such an outcome. -/
theorem outcome_lawful {w : World} (quiet : w.observer = none) (place : Nat) (job : PlannedJob)
    (c : Cancellation) :
    (∃ report o, runJob w place job c = .ok report ∧ report.result = some o ∧
      o.Lawful place job w.endings (turnFlags w c report.log)) ∧
    ∀ p, Pool.Reaches w (Pool.ofJob place job (c.aborted && w.listens) c.abortAt) p →
      (∃ q, Pool.Reaches w p q ∧ q.IsOver) ∧
      (p.IsOver → ∃ o, p.outcomeAt? place = some o ∧
        o.Lawful place job w.endings (turnFlags w c p.log)) := by
  constructor
  · let last := (Pool.ofJob place job (c.aborted && w.listens) c.abortAt).run w
    have reached : Pool.Reaches w _ last := Pool.reaches_run w _
    have ok : last.failure = none := Pool.failure_of_reaches quiet reached
    obtain ⟨o, present, lawful⟩ := lawful_of_ofJob reached ok (Pool.isOver_run quiet rfl)
    refine ⟨⟨last.log.filter (·.what.isOfSteps), last.outcomeAt? place⟩, o, ?_, present, ?_⟩
    · simp only [runJob]
      rw [show (Pool.run _ w).failure = none from ok]
    · rw [turnFlags, Watch.ofLog_filter]
      exact lawful
  · intro p reached
    have ok : p.failure = none := Pool.failure_of_reaches quiet reached
    exact ⟨⟨p.run w, Pool.reaches_run w p, Pool.isOver_run quiet ok⟩, lawful_of_ofJob reached ok⟩

/-- A job in trouble: the failures of its first two steps are tolerated, of which
    the second has a malformed template, and its third one stops it. -/
def troubled : PlannedJob :=
  let like (id : String) (policy : FailurePolicy) (run : Option String) : List PlannedStep :=
    (oneStep 0).steps.map fun step => { step with id, policy, run }
  { oneStep 0 with
    steps := like "lint" .tolerant none ++
      like "deploy" .tolerant (some "echo $\x7b\x7b # \x7d\x7d") ++
      like "build" .fatal none ++ like "clean" .fatal none }

def World.refusing : World where
  lead := 2
  behaviour := fun _ _ => ⟨some 5, .completed ⟨false, none⟩, false, []⟩
  listens := true
  observer := none

/-- The run is cancelled while the third step acts. -/
theorem outcome_lawful_troubled :
    World.refusing.observer = none ∧
    ∃ report o, runJob World.refusing 0 troubled ⟨false, some 7⟩ = .ok report ∧
      report.result = some o ∧
      turnFlags World.refusing ⟨false, some 7⟩ report.log = [false, false, false, true] ∧
      o.Lawful 0 troubled World.refusing.endings [false, false, false, true] ∧
      (o.status, o.stoppedAt) = (.failed, some "build") ∧
      o.steps.map (·.state.name) = ["failed", "failed", "failed", "skipped"] ∧
      o.diagnostics.map (·.step) = [some "deploy"] := by
  obtain ⟨report, o, ran, present, lawful⟩ :=
    (outcome_lawful (w := World.refusing) rfl 0 troubled ⟨false, some 7⟩).1
  have flags : (runJob World.refusing 0 troubled ⟨false, some 7⟩).toOption.map (fun report =>
      turnFlags World.refusing ⟨false, some 7⟩ report.log) = some [false, false, false, true] := by
    decide +kernel
  have status : (runJob World.refusing 0 troubled ⟨false, some 7⟩).toOption.map (fun report =>
      report.result.map fun o => (o.status, o.stoppedAt)) =
      some (some (.failed, some "build")) := by
    decide +kernel
  have told : (runJob World.refusing 0 troubled ⟨false, some 7⟩).toOption.map (fun report =>
      report.result.map fun o => (o.steps.map (·.state.name), o.diagnostics.map (·.step))) =
      some (some (["failed", "failed", "failed", "skipped"], [some "deploy"])) := by
    decide +kernel
  simp only [ran, Except.toOption, Option.map_some, present, Option.some.injEq] at flags status told
  rw [flags] at lawful
  obtain ⟨states, diagnostics⟩ := Prod.mk.injEq .. ▸ told
  exact ⟨rfl, report, o, ran, present, flags, lawful, status, states, diagnostics⟩

end JobMatrix.Run
