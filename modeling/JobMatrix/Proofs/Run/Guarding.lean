import JobMatrix.Proofs.Run.Progress

/-! # The guard of the steps

The status of a job goes one way: from success to cancelled, and from both to
failure.  Once it is not success, no step starts whose condition asks for no
status: the guard skips it before its condition is evaluated, and the reason
tells the status.
-/

namespace JobMatrix

/-! ## The status of a job -/

namespace JobStatus

/-- The changes of a status. -/
inductive Moves : JobStatus → JobStatus → Prop
  | cancelled : Moves .success .cancelled
  | failed : Moves .success .failure
  | failedLate : Moves .cancelled .failure

/-- A status becomes another by some changes. -/
abbrev Leads : JobStatus → JobStatus → Prop :=
  Relation.ReflTransGen Moves

theorem leads_failure (status : JobStatus) : status.Leads .failure := by
  cases status with
  | success => exact .single .failed
  | failure => exact .refl
  | cancelled => exact .single .failedLate

theorem Leads.ne_success {before after : JobStatus} (h : before.Leads after)
    (unsuccessful : before ≠ .success) : after ≠ .success := by
  induction h with
  | refl => exact unsuccessful
  | tail _ move ih =>
      cases move with
      | cancelled | failed => exact absurd rfl ih
      | failedLate => exact JobStatus.noConfusion

def guardReason : JobStatus → SkipReason
  | failure => .priorFailure
  | success | cancelled => .cancelled

end JobStatus

/-! ## The turn of a guarded step -/

/-- A condition that asks for no status: it is absent or empty, or an
    expression that calls no status function. -/
def Expr.AsksNoStatus (condition : Option String) : Prop :=
  conditionText condition = "" ∨
    ∃ tree, parse (conditionText condition) = .ok tree ∧ callsStatus tree = false

theorem Expr.holds_of_asksNoStatus {condition : Option String} {context : Context}
    (plain : AsksNoStatus condition) (unsuccessful : context.hasStatus "success" = false) :
    holds condition context = .ok false := by
  simp only [holds, unsuccessful]
  split
  · rfl
  · next nonempty =>
      obtain ⟨tree, parsed, silent⟩ := plain.resolve_left nonempty
      simp only [parsed, bind, Except.bind, silent, Bool.not_false, Bool.and_self, if_true]
      rfl

theorem Expr.overridesStatus_of_asksNoStatus {condition : Option String}
    (plain : AsksNoStatus condition) : overridesStatus condition = .ok false := by
  simp only [overridesStatus]
  split
  · rfl
  · next nonempty =>
      obtain ⟨tree, parsed, silent⟩ := plain.resolve_left nonempty
      simp only [parsed, bind, Except.bind, silent]
      rfl

def PlannedStep.Admits (step : PlannedStep) (host : HostPlatform) : Prop :=
  ∀ limits, step.platforms = some limits → ∃ platform ∈ limits, host = .own platform

theorem PlannedStep.Admits.any_eq_false {step : PlannedStep} {host : HostPlatform}
    (h : step.Admits host) : step.platforms.any (!host.isAmong ·) = false := by
  cases limits : step.platforms with
  | none => rfl
  | some platforms =>
      obtain ⟨platform, member, rfl⟩ := h platforms limits
      simpa [HostPlatform.isAmong] using member

namespace JobState

variable {s : JobState} {job : PlannedJob} {step : PlannedStep}

theorem status_notice (s : JobState) (aborted : Bool) :
    (s.notice aborted).status =
      if aborted && s.status = .success then .cancelled else s.status := by
  unfold notice
  split <;> rfl

theorem leads_notice (s : JobState) (aborted : Bool) :
    s.status.Leads (s.notice aborted).status := by
  rw [status_notice]
  split
  · next noticed =>
      have success : s.status = .success := by simp_all
      rw [success]
      exact .single .cancelled
  · exact .refl

theorem notice_of_unsuccessful (unsuccessful : s.status ≠ .success) (aborted : Bool) :
    s.notice aborted = s := by
  simp [notice, unsuccessful]

theorem notice_eq_of_unsuccessful {aborted later : Bool}
    (unsuccessful : (s.notice aborted).status ≠ .success) (still : aborted = true → later = true) :
    s.notice later = s.notice aborted := by
  by_cases success : s.status = .success
  · cases aborted with
    | false => exact absurd success unsuccessful
    | true => rw [still rfl]
  · rw [notice_of_unsuccessful success, notice_of_unsuccessful success]

theorem status_complete (s : JobState) (step : PlannedStep) (result : ActionResult) :
    (s.complete step result).status = s.status ∨ (s.complete step result).status = .failure := by
  unfold complete
  split
  · exact .inl rfl
  · dsimp only
    split
    · exact .inr rfl
    · exact .inl rfl

theorem leads_of_complete (s : JobState) (step : PlannedStep) (result : ActionResult) :
    s.status.Leads (s.complete step result).status := by
  rcases status_complete s step result with same | failed
  · rw [same]
  · rw [failed]
    exact JobStatus.leads_failure _

/-- A cancelled run cannot be overlooked by the end of an action. -/
theorem leads_complete (s : JobState) (step : PlannedStep) (result : ActionResult)
    (aborted : Bool) :
    (s.notice aborted).status.Leads ((s.complete step result).notice aborted).status := by
  rw [status_notice (s.complete step result)]
  rcases status_complete s step result with same | failed
  · rw [same, ← status_notice]
  · rw [failed]
    simp only [reduceCtorEq, decide_false, Bool.and_false, Bool.false_eq_true, if_false]
    exact JobStatus.leads_failure _

theorem leads_of_settled {aborted : Bool} {s' : JobState}
    (turn : s.turn job aborted step = .settled s') :
    (s.notice aborted).status.Leads s'.status := by
  obtain ⟨diagnostics, ⟨reason, rfl⟩ | ⟨message, rfl⟩⟩ := turn_eq_settled turn
  · exact .refl
  · exact leads_of_complete { s.notice aborted with diagnostics } step _

theorem turn_of_unsuccessful {aborted : Bool}
    (unsuccessful : (s.notice aborted).status ≠ .success) (admitted : step.Admits job.platform)
    (plain : Expr.AsksNoStatus step.condition) :
    s.turn job aborted step = .settled
      ((s.notice aborted).skip step (s.notice aborted).status.guardReason) := by
  have seen : (s.notice aborted).context.toContext.hasStatus "success" = false := by
    rw [JobContext.hasStatus_success]
    exact decide_eq_false unsuccessful
  have reason : (s.notice aborted).falseReason step =
      (s.notice aborted).status.guardReason := by
    simp only [falseReason, Expr.overridesStatus_of_asksNoStatus plain, unsuccessful]
    cases status : (s.notice aborted).status with
    | success => exact absurd status unsuccessful
    | failure | cancelled => rfl
  simp only [turn, admitted.any_eq_false, Expr.holds_of_asksNoStatus plain seen, reason,
    Bool.false_eq_true, if_false]

end JobState

/-- What the expressions of a job see if it takes a turn. -/
def Running.view (r : Running) (aborted : Bool) : JobContext :=
  (r.state.notice aborted).context

namespace Run

def Stage.running? : Stage → Option Running
  | turning r | acting r _ _ | closing r => some r
  | reported .. => none

/-! ## The way of the status -/

/-- What a job does next takes its status on. -/
theorem Stage.Goes.leads {w : World} {aborted : Bool} {x y : Stage} {told : List Happening}
    (h : x.Goes w aborted told (some y)) {r' : Running} (under : y.running? = some r') :
    ∃ r, x.running? = some r ∧ (r.view aborted).status.Leads (r'.view aborted).status := by
  cases h with
  | @settle r step rest s result next turn =>
      obtain rfl := Option.some.inj under
      exact ⟨r, rfl, (JobState.leads_of_settled turn).trans (JobState.leads_notice s aborted)⟩
  | @begin r step prepared rest s next turn =>
      obtain rfl := Option.some.inj under
      obtain ⟨rfl, -⟩ := JobState.turn_eq_started turn
      exact ⟨r, rfl, JobState.leads_notice _ aborted⟩
  | ended | close =>
      obtain rfl := Option.some.inj under
      exact ⟨_, rfl, .refl⟩
  | @complete r step how result =>
      obtain rfl := Option.some.inj under
      exact ⟨r, rfl, JobState.leads_complete r.state step how.ending.result aborted⟩
  | report => cases under

theorem leads_view (r : Running) :
    (r.view false).status.Leads (r.view true).status :=
  JobState.leads_notice r.state true

/-- Where a job under way has come to, its status has gone on from a first one. -/
def Stage.LedFrom (first : JobStatus) (aborted : Bool) (z : Option Stage) : Prop :=
  ∀ y r, z = some y → y.running? = some r → first.Leads (r.view aborted).status

theorem Stage.LedFrom.raise {first : JobStatus} {z : Option Stage} (h : LedFrom first false z) :
    LedFrom first true z := by
  intro y r found under
  exact (h y r found under).trans (leads_view r)

theorem Stage.LedFrom.go {w : World} {first : JobStatus} {aborted : Bool} {x : Stage}
    {told : List Happening} {z : Option Stage} (h : LedFrom first aborted (some x))
    (goes : x.Goes w aborted told z) : LedFrom first aborted z := by
  rintro y r rfl under
  obtain ⟨before, ready, leads⟩ := goes.leads under
  exact (h x before rfl ready).trans leads

/-- Whatever a run does, the status of a job only goes on. -/
theorem Board.leads_of_steps {w : World} {failFast lossy : Bool} {b b' : Board}
    (distinct : b.places.Nodup) (steps : Steps w failFast lossy b b') {x y : Stage}
    (before : x ∈ b.stages) (after : y ∈ b'.stages) (same : y.place = x.place) {r r' : Running}
    (first : x.running? = some r) (last : y.running? = some r') :
    (r.view b.aborted).status.Leads (r'.view b'.aborted).status := by
  have has : b.Has x.place (some x) := ⟨before, rfl⟩
  have start : Stage.LedFrom (r.view b.aborted).status b.aborted (some x) := by
    rintro y r' ⟨⟩ under
    obtain rfl := Option.some.inj (first.symm.trans under)
    exact .refl
  obtain ⟨z, told, has, -, leads⟩ := has.follow
    (motive := fun aborted z _ => Stage.LedFrom (r.view b.aborted).status aborted z) distinct
    start (fun _ _ h => h.raise) (fun _ _ _ _ _ h goes => h.go goes) steps
  exact leads y r' (has.unique (distinct_of_steps distinct steps) after same) last

/-! ## What the guard does -/

def Happening.guarded (job : PlannedJob) (step : PlannedStep) (status : JobStatus) : Happening :=
  .stepFinish job (step.result (.skipped status.guardReason))

section Guard

variable {w : World} {r : Running} {step : PlannedStep} {rest : List PlannedStep}

variable (next : r.rest = step :: rest) (admitted : step.Admits r.job.platform)
  (plain : Expr.AsksNoStatus step.condition)
include next admitted plain

theorem Stage.Goes.skips {aborted : Bool} {told : List Happening} {z : Option Stage}
    (h : (Stage.turning r).Goes w aborted told z) {view : JobContext}
    (seen : r.view aborted = view) (unsuccessful : view.status ≠ .success) :
    told = [.guarded r.job step view.status] ∨ told = [] ∧ z = none := by
  subst seen
  have guarded := JobState.turn_of_unsuccessful unsuccessful admitted plain
  cases h with
  | settle next' turn last =>
      obtain ⟨rfl, rfl⟩ := List.cons.inj (next.symm.trans next')
      obtain rfl := JobState.Turn.settled.inj (guarded.symm.trans turn)
      rw [JobState.skip, JobState.settle, List.getLast?_concat] at last
      obtain rfl := Option.some.inj last
      exact .inl rfl
  | begin next' turn | balk next' turn =>
      obtain ⟨rfl, rfl⟩ := List.cons.inj (next.symm.trans next')
      cases guarded.symm.trans turn
  | close none => cases next.symm.trans none
  | lose => exact .inr ⟨rfl, rfl⟩

/-- Of a job whose turn it was, nothing is told yet, or first that its step is
    skipped. -/
def Stage.Skips (r : Running) (step : PlannedStep) (was aborted : Bool) (z : Option Stage)
    (told : List Happening) : Prop :=
  (told = [] ∧ ∀ y, z = some y → y = .turning r ∧ (was = true → aborted = true)) ∨
    ∃ more, told = .guarded r.job step (r.view was).status :: more

theorem Stage.Skips.go {was aborted : Bool} (unsuccessful : (r.view was).status ≠ .success)
    {x : Stage} {z : Option Stage} {told more : List Happening}
    (holds : Skips r step was aborted (some x) told) (goes : x.Goes w aborted more z) :
    Skips r step was aborted z (told ++ more) := by
  rcases holds with ⟨rfl, still⟩ | ⟨rest, rfl⟩
  · obtain ⟨rfl, aborts⟩ := still x rfl
    have seen : r.view aborted = r.view was :=
      congrArg JobState.context (JobState.notice_eq_of_unsuccessful unsuccessful aborts)
    rcases goes.skips next admitted plain seen unsuccessful with rfl | ⟨rfl, rfl⟩
    · exact .inr ⟨[], rfl⟩
    · exact .inl ⟨rfl, fun y found => by cases found⟩
  · exact .inr ⟨rest ++ more, rfl⟩

/-- Whatever a run does, the next that is told of the job is that its step is
    skipped. -/
theorem Board.skips_of_steps {failFast lossy : Bool} {b b' : Board} (distinct : b.places.Nodup)
    (turning : .turning r ∈ b.stages) (unsuccessful : (r.view b.aborted).status ≠ .success)
    (steps : Steps w failFast lossy b b') :
    happenings b'.log r.place = happenings b.log r.place ∨
      ∃ more, happenings b'.log r.place =
        happenings b.log r.place ++ .guarded r.job step (r.view b.aborted).status :: more := by
  have has : b.Has r.place (some (.turning r)) := ⟨turning, rfl⟩
  have start : Stage.Skips r step b.aborted b.aborted (some (.turning r)) [] :=
    .inl ⟨rfl, fun y found => ⟨(Option.some.inj found).symm, id⟩⟩
  have raise z told (holds : Stage.Skips r step b.aborted false z told) :
      Stage.Skips r step b.aborted true z told := by
    rcases holds with ⟨silent, still⟩ | begun
    · exact .inl ⟨silent, fun y found => ⟨(still y found).1, fun _ => rfl⟩⟩
    · exact .inr begun
  obtain ⟨z, told, -, same, holds⟩ := has.follow distinct start raise
    (fun aborted x told more z => Stage.Skips.go next admitted plain unsuccessful) steps
  rcases holds with ⟨rfl, -⟩ | ⟨more, rfl⟩
  · exact .inl (same.trans (List.append_nil _))
  · exact .inr ⟨more, same⟩

/-- The worker of the job reports the step as skipped. -/
theorem Pool.log_advance_of_guarded (p : Pool)
    (unsuccessful : (r.view p.aborted).status ≠ .success) :
    (p.advance w r).log =
      p.log ++ [⟨p.clock, r.place, .guarded r.job step (r.view p.aborted).status⟩] := by
  have last : ((r.state.notice p.aborted).skip step
      (r.view p.aborted).status.guardReason).results.getLast? =
      some (step.result (.skipped (r.view p.aborted).status.guardReason)) :=
    List.getLast?_concat
  simp only [advance, next, JobState.turn_of_unsuccessful unsuccessful admitted plain]
  exact log_settled (r := { r with state := _, rest }) w p last

end Guard

/-- **The guard of the steps.**  Take any moves of the execution of a job, by
    itself or among others, and a moment when its next turn can be taken.  The
    status that its expressions see then has only gone on whenever another turn
    can be taken later, and never becomes success again.  If it is not success,
    and the next step admits the platform and has a condition that asks for no
    status, then the turn skips the step, and whatever the run does instead, this
    is the next that is told of the job: its action does not start, whatever the
    condition says. -/
theorem Pool.guard_law {w : World} {place : Nat} {job : PlannedJob} {p : Pool}
    (run : Executes w place job p) {r : Running} (ready : .advance r ∈ p.ready)
    (own : r.place = place) :
    (∀ q r', Reaches w p q → .advance r' ∈ q.ready → r'.place = place →
      (r.view p.aborted).status.Leads (r'.view q.aborted).status ∧
      ((r.view p.aborted).status ≠ .success → (r'.view q.aborted).status ≠ .success)) ∧
    ∀ step rest, r.rest = step :: rest → (r.view p.aborted).status ≠ .success →
      step.Admits job.platform → Expr.AsksNoStatus step.condition →
      (∃ q, Move w p q ∧ happenings q.log place = happenings p.log place ++
        [.guarded job step (r.view p.aborted).status]) ∧
      ∀ q, Reaches w p q →
        happenings q.log place = happenings p.log place ∨
        ∃ more, happenings q.log place =
          happenings p.log place ++ .guarded job step (r.view p.aborted).status :: more := by
  have turning := turning_of_ready ready
  obtain ⟨-, rfl⟩ : r.place = place ∧ r.job = job := run.isOf turning own
  subst own
  refine ⟨fun q r' reached ready' own' => ?_,
    fun step rest next unsuccessful admitted plain => ⟨?_, fun q reached => ?_⟩⟩
  · have leads := Board.leads_of_steps run.distinct (steps_of_reaches reached) turning
      (turning_of_ready ready') own' rfl rfl
    exact ⟨leads, leads.ne_success⟩
  · obtain ⟨before, after, split⟩ := List.append_of_mem ready
    refine ⟨_, .perform split, ?_⟩
    have skipped := log_advance_of_guarded (w := w) next admitted plain
      { p with ready := before ++ after } unsuccessful
    rw [perform, skipped]
    exact happenings_snoc_self _ _ _ _
  · exact Board.skips_of_steps next admitted plain run.distinct turning unsuccessful
      (steps_of_reaches reached)

def oneStepIf (condition : String) : PlannedJob :=
  { oneStep 0 with steps := (oneStep 0).steps.map ({ · with condition := some condition }) }

theorem admits_of_oneStepIf {condition : String} {step : PlannedStep}
    (member : step ∈ (oneStepIf condition).steps) (host : HostPlatform) :
    step.Admits host := by
  obtain rfl := List.mem_singleton.mp member
  intro limits given
  cases given

theorem condition_of_oneStepIf {condition : String} {step : PlannedStep}
    (member : step ∈ (oneStepIf condition).steps) : step.condition = some condition := by
  obtain rfl := List.mem_singleton.mp member
  rfl

theorem asksNoStatus_quoted : Expr.AsksNoStatus (some "'yes'") := by
  have text : Expr.conditionText (some "'yes'") = "'yes'" := rfl
  have parsed : Expr.parse "'yes'" = .ok (.literal (.string "yes")) := by cbv
  exact .inr ⟨_, text.symm ▸ parsed, rfl⟩

/-- A step whose condition is true by itself is skipped once the run is
    cancelled. -/
theorem Pool.guard_law_quoted :
    let w := World.dry true none
    let job := oneStepIf "'yes'"
    let r : Running := ⟨0, job, JobState.start job, job.steps⟩
    let p := (ofJob 0 job false none).abort w
    Executes w 0 job p ∧ .advance r ∈ p.ready ∧
      ∀ step rest, r.rest = step :: rest →
        step.Admits job.platform ∧ Expr.AsksNoStatus step.condition ∧
        (∃ q, Move w p q ∧ happenings q.log 0 =
          happenings p.log 0 ++ [.stepFinish job (step.result (.skipped .cancelled))]) ∧
        ∀ q, Reaches w p q → happenings q.log 0 = happenings p.log 0 ∨
          ∃ more, happenings q.log 0 = happenings p.log 0 ++
            .stepFinish job (step.result (.skipped .cancelled)) :: more := by
  intro w job r p
  have run : Executes w 0 job p := .alone (c := .never) (.single .abort)
  have ready : .advance r ∈ p.ready := List.mem_singleton.mpr rfl
  refine ⟨run, ready, fun step rest next => ?_⟩
  have member : step ∈ (oneStepIf "'yes'").steps := by
    have : step ∈ r.rest := next ▸ List.mem_cons_self
    exact this
  have admitted := admits_of_oneStepIf member job.platform
  have plain : Expr.AsksNoStatus step.condition :=
    condition_of_oneStepIf member ▸ asksNoStatus_quoted
  exact ⟨admitted, plain, (guard_law run ready rfl).2 step rest next nofun admitted plain⟩

end Run
end JobMatrix
