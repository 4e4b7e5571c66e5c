import JobMatrix.Proofs.Run.Interleaving

/-! # Workers

Between two jobs a worker looks for the next one.  Within a job it only ever
tells of steps and comes back to a queue, unless an observer fails: that ends
its work and the report of the run, while the other workers do not know of it.
-/

namespace JobMatrix.Run

namespace Pool

theorem failureAtStart?_eq_none {w : World} (quiet : w.observer = none) (step : String) :
    w.failureAtStart? step = none := by
  simp only [World.failureAtStart?, quiet]

theorem failureAtFinish?_eq_none {w : World} (quiet : w.observer = none) (step : String) :
    w.failureAtFinish? step = none := by
  simp only [World.failureAtFinish?, quiet]

/-- What a worker that has left the queues does within its job. -/
inductive Works (w : World) : Pool → Pool → Prop
  | goOn {p : Pool} (t : Task) : Works w p (p.goOn t)
  | lineUp {p : Pool} (t : Task) : Works w p (p.lineUp t)
  | wait {p : Pool} (delay : Nat) (r : Running) (step : PlannedStep) (b : Behaviour) :
      Works w p (p.setTimer delay (.actionEnd r step b))
  | tell {p q : Pool} (place : Option Nat) (what : Happening) (ofSteps : what.isOfSteps = true)
      (next : Works w (p.record place what) q) : Works w p q
  | abort {p q : Pool} (next : Works w (p.abort w) q) : Works w p q
  | fail {p : Pool} (message : String) (observed : w.observer ≠ none) :
      Works w p { p with failure := some message }

section Works

variable (w : World) (p : Pool)

theorem works_settled (r : Running) : Works w p (p.settled w r) := by
  unfold settled
  split
  · exact .goOn _
  · next result _ =>
      refine .tell r.place (.stepFinish r.job result) rfl ?_
      dsimp only
      split
      · next message fails =>
          refine .fail message fun quiet => ?_
          rw [failureAtFinish?_eq_none quiet] at fails
          cases fails
      · exact .goOn _

theorem log_settled {r : Running} {result : StepResult}
    (last : r.state.results.getLast? = some result) :
    (p.settled w r).log = p.log ++ [⟨p.clock, r.place, .stepFinish r.job result⟩] := by
  unfold settled
  rw [last]
  dsimp only
  split <;> rfl

theorem works_await (r : Running) (step : PlannedStep) (b : Behaviour) :
    Works w p (p.await w r step b) := by
  unfold await
  split
  · exact .wait _ r step b
  · exact works_settled w p _

theorem works_begin (r : Running) (step prepared : PlannedStep) :
    Works w p (p.begin w r step prepared) := by
  unfold begin
  refine .tell r.place (.stepStart r.job prepared) rfl ?_
  dsimp only
  split
  · next message fails =>
      refine .fail message fun quiet => ?_
      rw [failureAtStart?_eq_none quiet] at fails
      cases fails
  · refine .tell r.place (.actionStart r.job prepared r.state.context) rfl ?_
    split
    · exact works_await w _ r step _
    · exact .lineUp _

theorem works_advance (r : Running) : Works w p (p.advance w r) := by
  unfold advance
  split
  · exact .lineUp _
  · split
    · exact works_settled w p _
    · exact works_begin w p _ _ _

theorem works_perform (t : Task) :
    Works w p (p.perform w t) ∨ t = .next ∨ ∃ r, t = .report r := by
  match t with
  | .next => exact .inr (.inl rfl)
  | .advance r => exact .inl (works_advance w p r)
  | .act r step b 0 => exact .inl (works_await w p r step b)
  | .act r step b (more + 1) => exact .inl (.lineUp _)
  | .report r => exact .inr (.inr ⟨r, rfl⟩)

theorem works_fire (a : Alarm) : a.endsAction = true ∧ Works w p (p.fire w a) ∨ a = .abort := by
  match a with
  | .abort => exact .inr rfl
  | .actionEnd r step b =>
      refine .inl ⟨rfl, .tell r.place (.actionEnd r.job step b.output) rfl ?_⟩
      simp only [fire]
      split
      · exact .abort (works_settled w _ _)
      · exact works_settled w _ _

end Works

/-! ## Observers -/

/-- What a move leaves as it is: whether the run is fail-fast, the failure of an
    observer, and, in a world where observers do not fail, that there is none. -/
structure Keeps (w : World) (p q : Pool) : Prop where
  failFast : q.failFast = p.failFast
  failure : p.failure.isSome = true → q.failure.isSome = true
  quiet : w.observer = none → q.failure = p.failure

theorem Keeps.of_eq {w : World} {p q : Pool} (failFast : q.failFast = p.failFast)
    (failure : q.failure = p.failure) : Keeps w p q := by
  refine ⟨failFast, fun failed => ?_, fun _ => failure⟩
  rw [failure]
  exact failed

theorem Keeps.trans {w : World} {p q r : Pool} (h : Keeps w p q) (h' : Keeps w q r) :
    Keeps w p r :=
  ⟨h'.failFast.trans h.failFast, fun failed => h'.failure (h.failure failed),
    fun quiet => (h'.quiet quiet).trans (h.quiet quiet)⟩

theorem Keeps.failure_eq_none {w : World} {p q : Pool} (h : Keeps w p q)
    (ok : q.failure = none) : p.failure = none := by
  cases failed : p.failure with
  | none => rfl
  | some message =>
      have := h.failure (by rw [failed]; rfl)
      rw [ok] at this
      cases this

section Reaches

variable {w : World} {p q : Pool}

theorem Works.keeps (h : Works w p q) : Keeps w p q := by
  induction h with
  | goOn | lineUp | wait => exact .of_eq rfl rfl
  | @tell p q place what _ _ ih =>
      have told : Keeps w p (p.record place what) := .of_eq rfl rfl
      exact told.trans ih
  | @abort p q _ ih =>
      have aborted : Keeps w p (p.abort w) := .of_eq rfl rfl
      exact aborted.trans ih
  | fail message observed => exact ⟨rfl, fun _ => rfl, fun quiet => absurd quiet observed⟩

theorem takeJob_eq_self {p : Pool} (none : p.waiting = []) : p.takeJob = p := by
  rw [takeJob, none]

theorem keeps_takeJob (w : World) (p : Pool) : Keeps w p p.takeJob := by
  unfold takeJob
  split
  · exact .of_eq rfl rfl
  · dsimp only
    split <;> exact .of_eq rfl rfl

theorem keeps_of_move (h : Move w p q) : Keeps w p q := by
  cases h with
  | @perform before after t ready =>
      have taken : Keeps w p { p with ready := before ++ after } := .of_eq rfl rfl
      apply taken.trans
      rcases works_perform w { p with ready := before ++ after } t with works | rfl | ⟨r, rfl⟩
      · exact works.keeps
      · exact keeps_takeJob w _
      · exact .of_eq rfl rfl
  | @fire before after t time timers =>
      have taken : Keeps w p { p with timers := before ++ after, clock := time } := .of_eq rfl rfl
      apply taken.trans
      rcases works_fire w { p with timers := before ++ after, clock := time } t.alarm with
        ⟨-, works⟩ | same
      · exact works.keeps
      · rw [same]
        exact .of_eq rfl rfl
  | abort => exact .of_eq rfl rfl

theorem keeps_of_reaches (h : Reaches w p q) : Keeps w p q := by
  induction h with
  | refl => exact .of_eq rfl rfl
  | tail _ move ih => exact ih.trans (keeps_of_move move)

theorem failure_of_reaches (quiet : w.observer = none) (h : Reaches w p q) :
    q.failure = p.failure :=
  (keeps_of_reaches h).quiet quiet

theorem isOver_run (quiet : w.observer = none) (ok : p.failure = none) : (p.run w).IsOver :=
  isOver_of_step? ((failure_of_reaches quiet (reaches_run w p)).trans ok) (step?_run w p)

end Reaches

/-! ## Busy workers -/

/-- The workers that can go on or wait for an action. -/
def busy (p : Pool) : Nat :=
  p.ready.length + p.timers.countP fun t => t.alarm.endsAction

theorem busy_goOn (p : Pool) (t : Task) : (p.goOn t).busy = p.busy + 1 := by
  simp only [busy, goOn, List.length_cons]
  omega

theorem busy_lineUp (p : Pool) (t : Task) : (p.lineUp t).busy = p.busy + 1 := by
  simp only [busy, lineUp, List.length_append, List.length_cons, List.length_nil]
  omega

theorem busy_setTimer (p : Pool) (delay : Nat) (r : Running) (step : PlannedStep)
    (b : Behaviour) : (p.setTimer delay (.actionEnd r step b)).busy = p.busy + 1 := by
  simp only [busy, setTimer, List.countP_append, List.countP_singleton, Alarm.endsAction, if_true]
  omega

theorem busy_of_ready {p : Pool} {before after : List Task} {t : Task}
    (ready : p.ready = before ++ t :: after) :
    p.busy = ({ p with ready := before ++ after } : Pool).busy + 1 := by
  simp only [busy, ready, List.length_append, List.length_cons]
  omega

theorem busy_of_timers {p : Pool} {before after : List Timer} {t : Timer} (time : Nat)
    (timers : p.timers = before ++ t :: after) :
    p.busy = ({ p with timers := before ++ after, clock := time } : Pool).busy
      + if t.alarm.endsAction then 1 else 0 := by
  simp only [busy, timers, List.countP_append, List.countP_cons]
  omega

theorem busy_takeJob (p : Pool) :
    p.takeJob.busy = p.busy + 1 ∨ p.waiting = [] ∧ p.takeJob = p := by
  unfold takeJob
  split
  · next none => exact .inr ⟨none, rfl⟩
  · left
    dsimp only
    split <;> exact busy_goOn _ _

section Moves

variable {w : World} {p q : Pool}

theorem Works.busy (h : Works w p q) (ok : q.failure = none) : q.busy = p.busy + 1 := by
  induction h with
  | goOn t => exact busy_goOn _ t
  | lineUp t => exact busy_lineUp _ t
  | wait delay r step b => exact busy_setTimer _ delay r step b
  | tell _ _ _ _ ih | abort _ ih => exact ih ok
  | fail => cases ok

/-- No worker leaves a run while jobs wait, unless an observer fails. -/
theorem busy_of_move (h : Move w p q) (ok : q.failure = none) :
    q.busy = p.busy ∨ p.waiting = [] ∧ q.busy + 1 = p.busy := by
  cases h with
  | @perform before after t ready =>
      rw [busy_of_ready ready]
      rcases works_perform w { p with ready := before ++ after } t with works | rfl | ⟨r, rfl⟩
      · exact .inl (works.busy ok)
      · rcases busy_takeJob { p with ready := before ++ after } with takes | ⟨none, same⟩
        · exact .inl takes
        · exact .inr ⟨none, congrArg (Pool.busy · + 1) same⟩
      · exact .inl (busy_goOn _ _)
  | @fire before after t time timers =>
      rw [busy_of_timers time timers]
      rcases works_fire w { p with timers := before ++ after, clock := time } t.alarm with
        ⟨ends, works⟩ | same
      · rw [if_pos ends]
        exact .inl (works.busy ok)
      · rw [same]
        exact .inl rfl
  | abort => exact .inl rfl

end Moves

/-! ## What a move logs -/

section Log

variable {w : World} {p q : Pool}

theorem Works.log (h : Works w p q) :
    ∃ more, q.log = p.log ++ more ∧ ∀ e ∈ more, e.what.isOfSteps = true := by
  induction h with
  | goOn | lineUp | wait | fail =>
      exact ⟨[], (List.append_nil _).symm, fun e member => absurd member List.not_mem_nil⟩
  | @tell p q place what ofSteps _ ih =>
      obtain ⟨more, same, steps⟩ := ih
      refine ⟨⟨p.clock, place, what⟩ :: more, ?_, List.forall_mem_cons.mpr ⟨ofSteps, steps⟩⟩
      rw [same]
      exact List.append_assoc _ _ _
  | @abort p q _ ih =>
      obtain ⟨more, same, steps⟩ := ih
      refine ⟨⟨p.clock, none, .abort⟩ :: more, ?_, List.forall_mem_cons.mpr ⟨rfl, steps⟩⟩
      rw [same]
      exact List.append_assoc _ _ _

/-- A move logs what belongs to steps, or just one thing. -/
theorem log_of_move (h : Move w p q) :
    (∃ more, q.log = p.log ++ more ∧ ∀ e ∈ more, e.what.isOfSteps = true) ∨
      ∃ e, q.log = p.log ++ [e] := by
  cases h with
  | @perform before after t ready =>
      rcases works_perform w { p with ready := before ++ after } t with works | rfl | ⟨r, rfl⟩
      · exact .inl works.log
      · simp only [perform, takeJob]
        split
        · exact .inl ⟨[], (List.append_nil _).symm, fun e member => absurd member List.not_mem_nil⟩
        · split <;> exact .inr ⟨_, rfl⟩
      · exact .inr ⟨_, rfl⟩
  | @fire before after t time timers =>
      rcases works_fire w { p with timers := before ++ after, clock := time } t.alarm with
        ⟨-, works⟩ | same
      · exact .inl works.log
      · rw [same]
        exact .inr ⟨_, rfl⟩
  | abort => exact .inr ⟨_, rfl⟩

end Log

end Pool

theorem runJobs_eq_ok {w : World} {jobs : List PlannedJob} {limit : Option Number}
    {failFast : Bool} {c : Cancellation} (quiet : w.observer = none) :
    ∃ report, runJobs w jobs limit failFast c = .ok report := by
  have ok : ((Pool.start w jobs limit failFast c).run w).failure = none :=
    Pool.failure_of_reaches quiet (Pool.reaches_run w _)
  simp only [runJobs]
  split
  · next message failed => exact absurd (ok.symm.trans failed) (by simp)
  · exact ⟨_, rfl⟩

end JobMatrix.Run
