import JobMatrix.Proofs.Run.Completion

/-! # Cancellation

A run is cancelled by a request that it listens to, or, if it is fail-fast, by
the report of a job that has failed; by nothing else, and for good.  From then
on no job starts, and only the steps start whose condition asks for the status.
-/

namespace JobMatrix.Run

def Happening.cancels (w : World) (failFast : Bool) : Happening → Bool
  | abort => w.listens
  | jobFinish _ outcome => failFast && outcome.status = .failed
  | _ => false

def cancelledBy (w : World) (failFast : Bool) (c : Cancellation) (log : List Event) : Bool :=
  (c.aborted && w.listens) || log.any fun e => e.what.cancels w failFast

/-- Nobody cancels a run from outside: it listens to no request, or none
    arrives. -/
def Undisturbed (w : World) (c : Cancellation) (log : List Event) : Prop :=
  w.listens = true → c.aborted = false ∧ ∀ e ∈ log, e.what ≠ .abort

section Log

variable {w : World} {failFast : Bool} {c : Cancellation}

theorem cancelledBy_append (log more : List Event) :
    cancelledBy w failFast c (log ++ more) =
      (cancelledBy w failFast c log || more.any fun e => e.what.cancels w failFast) := by
  simp only [cancelledBy, List.any_append, Bool.or_assoc]

theorem cancelledBy_snoc (log : List Event) (e : Event) :
    cancelledBy w failFast c (log ++ [e]) =
      (cancelledBy w failFast c log || e.what.cancels w failFast) := by
  simp only [cancelledBy_append, List.any_cons, List.any_nil, Bool.or_false]

/-- A run that nobody cancels from outside is cancelled only by a failed job. -/
theorem cancelledBy_eq_false {log : List Event} (undisturbed : Undisturbed w c log)
    (h : ∀ e ∈ log, ∀ job outcome, e.what = .jobFinish job outcome →
      (failFast && outcome.status = .failed) = false) : cancelledBy w failFast c log = false := by
  simp only [cancelledBy, Bool.or_eq_false_iff, Bool.and_eq_false_iff, List.any_eq_false]
  refine ⟨?_, fun e member => ?_⟩
  · cases listens : w.listens with
    | false => exact .inr rfl
    | true => exact .inl (undisturbed listens).1
  · cases what : e.what with
    | abort =>
        cases listens : w.listens with
        | false => simp only [Happening.cancels, listens, Bool.false_eq_true, not_false_eq_true]
        | true => exact absurd what ((undisturbed listens).2 e member)
    | jobFinish job outcome =>
        simp only [Happening.cancels, h e member job outcome what, Bool.false_eq_true,
          not_false_eq_true]
    | _ => exact Bool.false_ne_true

/-- What may happen behind a log. -/
def Allowed (w : World) (failFast : Bool) (c : Cancellation) (before : List Event)
    (e : Event) : Prop :=
  match e.what with
  | .jobStart _ => cancelledBy w failFast c before = false
  -- A job about which there is nothing before is refused.
  | .jobFinish .. => ∀ i, e.place = some i → happenings before i = [] →
      cancelledBy w failFast c before = true
  | .stepStart _ step => cancelledBy w failFast c before = true →
      Expr.overridesStatus step.condition = .ok true
  | _ => True

/-- The state of cancellation is what the log tells, and all that has happened
    was allowed by what was before it. -/
structure Ordered (w : World) (failFast : Bool) (c : Cancellation) (aborted : Bool)
    (log : List Event) : Prop where
  aborted : aborted = cancelledBy w failFast c log
  allowed : ∀ before e after, log = before ++ e :: after → Allowed w failFast c before e

theorem forall_split_concat {α : Type} {P : List α → α → Prop} {log : List α} {last : α}
    (earlier : ∀ before e after, log = before ++ e :: after → P before e) (now : P log last) :
    ∀ before e after, log ++ [last] = before ++ e :: after → P before e := by
  intro before e after split
  rcases List.eq_nil_or_concat after with rfl | ⟨most, final, rfl⟩
  · obtain ⟨rfl, same⟩ := List.append_inj' split rfl
    cases same
    exact now
  · have split : log ++ [last] = (before ++ e :: most) ++ [final] := by
      rw [split, List.concat_eq_append, List.append_assoc, List.cons_append]
    obtain ⟨rfl, -⟩ := List.append_inj' split rfl
    exact earlier before e most rfl

theorem Ordered.snoc {aborted : Bool} {log : List Event} {e : Event}
    (h : Ordered w failFast c aborted log) (allowed : Allowed w failFast c log e) :
    Ordered w failFast c (aborted || e.what.cancels w failFast) (log ++ [e]) :=
  ⟨by rw [h.aborted, cancelledBy_snoc], forall_split_concat h.allowed allowed⟩

theorem Ordered.quiet {aborted : Bool} {log : List Event} {e : Event}
    (h : Ordered w failFast c aborted log) (allowed : Allowed w failFast c log e)
    (harmless : e.what.cancels w failFast = false) :
    Ordered w failFast c aborted (log ++ [e]) := by
  have next := h.snoc allowed
  rwa [harmless, Bool.or_false] at next

theorem Ordered.stepStart {aborted : Bool} {log : List Event} {s s' : JobState} {job : PlannedJob}
    {step prepared : PlannedStep} (h : Ordered w failFast c aborted log)
    (turn : s.turn job aborted step = .started s' prepared) (t : Nat) {place : Option Nat} :
    Ordered w failFast c aborted (log ++ [⟨t, place, .stepStart job prepared⟩]) := by
  have starts : Allowed w failFast c log ⟨t, place, .stepStart job prepared⟩ := by
    intro cancelled
    rw [h.aborted.trans cancelled] at turn
    exact JobState.overridesStatus_of_started turn
  exact h.quiet starts rfl

end Log

namespace Board

variable {w : World} {failFast lossy : Bool} {c : Cancellation} {b b' : Board}

theorem ordered_step {jobAt : Nat → Option PlannedJob} (told : b.Told w jobAt)
    (h : Ordered w failFast c b.aborted b.log) (step : Step w failFast lossy b b') :
    Ordered w failFast c b'.aborted b'.log := by
  cases step with
  | @refuse b place job t aborted =>
      have cancelled : cancelledBy w failFast c b.log = true := h.aborted.symm.trans aborted
      have next := h.quiet (e := ⟨t, some place, .jobFinish job job.cancelled⟩)
        (fun _ _ _ => cancelled)
        (by simp only [Happening.cancels, PlannedJob.cancelled, reduceCtorEq, decide_false,
          Bool.and_false])
      exact next
  | @start b place job t aborted =>
      exact h.quiet (e := ⟨t, some place, .jobStart job⟩) (h.aborted.symm.trans aborted) rfl
  | @settle b r step rest s result t =>
      exact h.quiet (e := ⟨t, some r.place, .stepFinish r.job result⟩) trivial rfl
  | @begin b r step prepared rest s t next turn =>
      exact (h.stepStart turn t).quiet
        (e := ⟨t, some r.place, .actionStart r.job prepared s.context⟩) trivial rfl
  | @ended b r step how t =>
      exact h.quiet (e := ⟨t, some r.place, .actionEnd r.job step how.output⟩) trivial rfl
  | @complete b r step how result t =>
      exact h.quiet (e := ⟨t, some r.place, .stepFinish r.job result⟩) trivial rfl
  | close => exact h
  | @report b r t =>
      obtain ⟨-, -, job, -, story⟩ := told.of_put
      -- The job has a story before its finish, so the finish is no refusal.
      refine h.snoc (e := ⟨t, some r.place, .jobFinish r.job (r.state.outcome r.job)⟩) ?_
      rintro i ⟨⟩ silent
      exact absurd silent story.told_ne_nil
  | @abort b t => exact h.snoc (e := ⟨t, none, .abort⟩) trivial
  | @balk b r step prepared rest s t fails next turn => exact h.stepStart turn t
  | lose => exact h

theorem log_step (step : Step w failFast lossy b b') : b.log <+: b'.log := by
  cases step with
  | refuse | start | settle | ended | complete | report | abort | balk =>
      exact List.prefix_append _ _
  | begin => exact (List.prefix_append _ _).trans (List.prefix_append _ _)
  | close | lose => exact List.prefix_rfl

theorem log_steps (steps : Steps w failFast lossy b b') : b.log <+: b'.log := by
  induction steps with
  | refl => exact List.prefix_rfl
  | tail _ step ih => exact ih.trans (log_step step)

theorem ordered_steps {jobAt : Nat → Option PlannedJob} (told : b.Told w jobAt)
    (h : Ordered w failFast c b.aborted b.log) (steps : Steps w failFast lossy b b') :
    Ordered w failFast c b'.aborted b'.log := by
  induction steps with
  | refl => exact h
  | tail before step ih => exact ordered_step (told.steps before) ih step

end Board

namespace Pool

section Runs

variable {w : World} {jobs : List PlannedJob} {limit : Option Number} {failFast : Bool}
  {c : Cancellation} {p : Pool} (reached : Reaches w (start w jobs limit failFast c) p)
include reached

/-- Whatever the order of its moves, a run is cancelled by what its log tells,
    and by nothing else. -/
theorem ordered_of_start : Ordered w failFast c p.aborted p.log := by
  have first : Ordered w failFast c (start w jobs limit failFast c).board.aborted
      (start w jobs limit failFast c).board.log := by
    refine ⟨?_, fun before e after split => ?_⟩
    · exact (Bool.or_false _).symm
    · cases List.append_ne_nil_of_right_ne_nil before (List.cons_ne_nil e after) split.symm
  exact Board.ordered_steps (told_start w jobs limit failFast c) first (steps_of_start reached)

theorem waiting_of_start {entry : Nat × PlannedJob} (member : entry ∈ p.waiting) :
    jobs[entry.1]? = some entry.2 ∧ happenings p.log entry.1 = [] :=
  (told_of_start reached).waiting entry member

end Runs

/-- **Cancellation is final.**  At every moment of a run the state of
    cancellation is what the log tells: the run was cancelled before it began,
    a request arrived that it listens to, or it is fail-fast and a job has been
    reported as failed.  Once it is cancelled, whatever happens next, no job
    starts, a step starts only if its condition calls a status function, and
    the run reports each job that nobody has taken as cancelled before its
    start. -/
theorem nothing_starts_once_cancelled {w : World} {jobs : List PlannedJob}
    {limit : Option Number} {failFast : Bool} {c : Cancellation} {p : Pool}
    (reached : Reaches w (start w jobs limit failFast c) p) :
    (p.aborted = true ↔ c.aborted = true ∧ w.listens = true ∨
      ∃ e ∈ p.log, e.what = .abort ∧ w.listens = true ∨
        ∃ job outcome, e.what = .jobFinish job outcome ∧ failFast = true ∧
          outcome.status = .failed) ∧
    (p.aborted = true → ∀ q, Reaches w p q → ∃ more, q.log = p.log ++ more ∧
      (∀ e ∈ more, ∀ job, e.what ≠ .jobStart job) ∧
      (∀ e ∈ more, ∀ job step, e.what = .stepStart job step →
        Expr.overridesStatus step.condition = .ok true) ∧
      (q.IsOver → q.failure = none → ∀ entry ∈ p.waiting,
        (q.outcomesInOrder jobs.length)[entry.1]? = some entry.2.cancelled)) := by
  have now := ordered_of_start reached
  refine ⟨?_, fun aborted q goesOn => ?_⟩
  · rw [now.aborted]
    simp only [cancelledBy, Bool.or_eq_true, Bool.and_eq_true, List.any_eq_true]
    refine or_congr_right (exists_congr fun e => and_congr_right fun _ => ?_)
    cases e.what <;> simp [Happening.cancels]
  · have later := reached.trans goesOn
    have law := (ordered_of_start later).allowed
    obtain ⟨more, same⟩ := Board.log_steps (steps_of_reaches goesOn)
    have same : q.log = p.log ++ more := same.symm
    -- What happens from now on happens behind a log that cancels the run.
    have behind {before after : List Event} {e : Event} (split : more = before ++ e :: after) :
        Allowed w failFast c (p.log ++ before) e ∧
          cancelledBy w failFast c (p.log ++ before) = true := by
      refine ⟨law _ e after (by rw [same, split, List.append_assoc]), ?_⟩
      rw [cancelledBy_append, ← now.aborted, aborted, Bool.true_or]
    have unstarted : ∀ e ∈ more, ∀ job, e.what ≠ .jobStart job := by
      intro e member job starts
      obtain ⟨before, after, split⟩ := List.append_of_mem member
      obtain ⟨allowed, cancelled⟩ := behind split
      simp only [Allowed, starts, cancelled, Bool.true_eq_false] at allowed
    refine ⟨more, same, unstarted, ?_, ?_⟩
    · intro e member job step starts
      obtain ⟨before, after, split⟩ := List.append_of_mem member
      obtain ⟨allowed, cancelled⟩ := behind split
      simp only [Allowed, starts] at allowed
      exact allowed cancelled
    · intro ended ok entry waits
      obtain ⟨found, silent⟩ := waiting_of_start reached waits
      obtain ⟨o, present, story⟩ := story_of_isOver later ok ended found
      rw [getElem?_outcomesInOrder later ok ended found, present]
      rcases story.refused_or_started with ⟨-, -, refused⟩ | ⟨rest, started⟩
      · cases refused
        rfl
      -- Nothing is told of the job up to now, so it would start later.
      · have first : Happening.jobStart entry.2 ∈ happenings q.log entry.1 := by
          rw [started]
          exact List.mem_cons_self
        rw [same, happenings, List.filterMap_append] at first
        rw [happenings] at silent
        rw [silent, List.nil_append] at first
        obtain ⟨e, member, what⟩ := List.mem_filterMap.mp first
        split at what
        · exact absurd (Option.some.inj what) (unstarted e member entry.2)
        · cases what

theorem nothing_starts_once_cancelled_at_once :
    let w := World.dry true none
    let jobs := [oneStep 0, oneStep 1]
    let p := (start w jobs none false .never).abort w
    Reaches w (start w jobs none false .never) p ∧ p.aborted = true ∧
      ∀ q, Reaches w p q → q.IsOver → ∀ entry ∈ p.waiting,
        (q.outcomesInOrder jobs.length)[entry.1]? = some entry.2.cancelled := by
  intro w jobs p
  have reached : Reaches w (start w jobs none false .never) p := .single .abort
  refine ⟨reached, rfl, fun q goesOn ended => ?_⟩
  obtain ⟨more, -, -, -, cancelled⟩ := (nothing_starts_once_cancelled reached).2 rfl q goesOn
  exact cancelled ended (failure_of_reaches rfl goesOn)

end Pool

end JobMatrix.Run
