import JobMatrix.Proofs.Run.Guarding

/-! # What the steps of a job see of those before them

At its turn a step sees one record for each step before it, that of its result,
and none of itself or of those behind it; its matrix and its runner are those of
the job.  The actions of the steps start in contexts of this kind.  Records are
assigned by the ids of their steps, so a step that has the key of the prototype
for its id is the one of which there is never a record.
-/

namespace JobMatrix

/-- What later expressions see of a result: a tolerated failure counts as
    success. -/
def StepResult.record (r : StepResult) : StepRecord :=
  match r.state, r.policy with
  | .succeeded, _ => ⟨.success, .success⟩
  | .failed _, .fatal => ⟨.failure, .failure⟩
  | .failed _, .tolerant => ⟨.success, .failure⟩
  | .skipped _, _ => .skipped

def PlannedStep.Gives (step : PlannedStep) (r : StepResult) : Prop :=
  ∃ state, r = step.result state

theorem ids_of_gives {steps : List PlannedStep} {results : List StepResult}
    (h : List.Forall₂ PlannedStep.Gives steps results) :
    results.map (·.id) = steps.map (·.id) := by
  induction h with
  | nil => rfl
  | cons first _ ih =>
      obtain ⟨state, rfl⟩ := first
      rw [List.map_cons, List.map_cons, ih]
      rfl

/-- The entries that results leave behind: one for each, unless its id is the
    key of the prototype. -/
def recordEntries (results : List StepResult) : List (String × StepRecord) :=
  (results.map fun r => (r.id, r.record)).filter fun entry => entry.1 ≠ Dict.prototypeKey

theorem perm_recordEntries_iff {results : List StepResult} :
    (recordEntries results).Perm (results.map fun r => (r.id, r.record)) ↔
      ∀ r ∈ results, r.id ≠ Dict.prototypeKey := by
  constructor
  · intro all
    have kept := List.length_filter_eq_length_iff.mp all.length_eq
    intro r member
    simpa using kept (r.id, r.record) (List.mem_map.mpr ⟨r, member, rfl⟩)
  · intro plain
    rw [recordEntries, List.filter_eq_self.mpr]
    intro entry member
    obtain ⟨r, told, rfl⟩ := List.mem_map.mp member
    exact decide_eq_true (plain r told)

theorem recordEntries_concat (results : List StepResult) (r : StepResult) :
    recordEntries (results ++ [r]) = recordEntries results ++ recordEntries [r] := by
  simp only [recordEntries, List.map_append, List.filter_append]

/-- A context tells exactly the results of the earlier steps of a job. -/
structure JobContext.Recalls (c : JobContext) (job : PlannedJob)
    (earlier later : List PlannedStep) (results : List StepResult) : Prop where
  split : job.steps = earlier ++ later
  gives : List.Forall₂ PlannedStep.Gives earlier results
  records : c.steps.entries.Perm (recordEntries results)
  runnerOs : c.runnerOs = some (job.runnerOs.getD "")
  matrix : c.matrix = job.matrix

/-- A context has one record for each result. -/
def JobContext.TellsAll (c : JobContext) (results : List StepResult) : Prop :=
  c.steps.entries.Perm (results.map fun r => (r.id, r.record))

namespace JobContext

variable {c : JobContext} {job : PlannedJob} {earlier later : List PlannedStep}
  {results : List StepResult}

theorem recalls_start (job : PlannedJob) :
    (start job.matrix job.env job.runnerOs).Recalls job [] job.steps [] :=
  ⟨rfl, .nil, .nil, rfl, rfl⟩

/-- There is no record of a step whose turn is not over. -/
theorem Recalls.get?_later (h : c.Recalls job earlier later results)
    (distinct : (job.steps.map (·.id)).Nodup) {step : PlannedStep} (member : step ∈ later) :
    c.steps.get? step.id = none := by
  rw [Dict.get?_eq_none_iff]
  intro recorded
  obtain ⟨entry, among, same⟩ := List.mem_map.mp ((h.records.map Prod.fst).mem_iff.mp recorded)
  obtain ⟨r, told, rfl⟩ := List.mem_map.mp (List.mem_of_mem_filter among)
  have before : r.id ∈ earlier.map (·.id) := ids_of_gives h.gives ▸ List.mem_map_of_mem told
  rw [h.split, List.map_append] at distinct
  refine List.disjoint_of_nodup_append distinct before ?_
  rw [show r.id = step.id from same]
  exact List.mem_map_of_mem member

/-- Each earlier step has its record exactly if none of their ids is the key of the
    prototype. -/
theorem Recalls.tellsAll_iff (h : c.Recalls job earlier later results) :
    c.TellsAll results ↔ ∀ s ∈ earlier, s.id ≠ Dict.prototypeKey := by
  have ids : (∀ r ∈ results, r.id ≠ Dict.prototypeKey) ↔
      ∀ s ∈ earlier, s.id ≠ Dict.prototypeKey := by
    rw [← List.forall_mem_map (P := (· ≠ Dict.prototypeKey)), ids_of_gives h.gives,
      List.forall_mem_map]
  rw [← ids, ← perm_recordEntries_iff]
  exact ⟨h.records.symm.trans, h.records.trans⟩

theorem Recalls.withStatus (h : c.Recalls job earlier later results) (status : JobStatus) :
    ({ c with status } : JobContext).Recalls job earlier later results :=
  ⟨h.split, h.gives, h.records, h.runnerOs, h.matrix⟩

theorem Recalls.record {step : PlannedStep} (h : c.Recalls job earlier (step :: later) results)
    (distinct : (job.steps.map (·.id)).Nodup) (state : StepState) :
    ({ c with steps := c.steps.assign step.id (step.result state).record } : JobContext).Recalls
      job (earlier ++ [step]) later (results ++ [step.result state]) := by
  refine ⟨?_, ?_, ?_, h.runnerOs, h.matrix⟩
  · rw [h.split, List.append_assoc, List.singleton_append]
  · exact List.rel_append h.gives (.cons ⟨state, rfl⟩ .nil)
  · have fresh := Dict.get?_eq_none_iff.mp (h.get?_later distinct List.mem_cons_self)
    rw [recordEntries_concat]
    exact ((Dict.assign_perm _ fresh).trans (h.records.append_left _)).trans List.perm_append_comm

theorem members_withEnv (c : JobContext) (env : Dict String) :
    ∃ value, (c.toContext.withEnv env).members =
      Entries.replace "env" value c.toContext.members := by
  have present : "env" ∈ c.toContext.members.map Prod.fst := by
    simp [toContext]
  obtain ⟨value, written⟩ : ∃ value, (c.toContext.withEnv env).members =
      Entries.insert "env" value c.toContext.members := ⟨_, rfl⟩
  exact ⟨value, written.trans (if_pos present)⟩

end JobContext

namespace JobState

/-- A step is over: its result and its record are there, and beside them no more
    than the status has changed. -/
def Records (s : JobState) (step : PlannedStep) (s' : JobState) : Prop :=
  ∃ state status, s'.results = s.results ++ [step.result state] ∧
    s'.context = { s.context with
      status, steps := s.context.steps.assign step.id (step.result state).record }

section Records

variable {s s' : JobState} {job : PlannedJob} {step : PlannedStep}

theorem records_skip (s : JobState) (step : PlannedStep) (reason : SkipReason) :
    s.Records step (s.skip step reason) :=
  ⟨.skipped reason, s.status, rfl, rfl⟩

theorem records_complete (s : JobState) (step : PlannedStep) (result : ActionResult) :
    s.Records step (s.complete step result) := by
  unfold complete
  split
  · exact ⟨.succeeded, s.status, rfl, rfl⟩
  · dsimp only
    split
    · next fatal =>
        have record : (step.result (.failedWith result.message)).record = ⟨.failure, .failure⟩ := by
          simp [StepResult.record, PlannedStep.result, StepState.failedWith, fatal]
        exact ⟨_, .failure, rfl, by rw [record]; rfl⟩
    · next tolerant =>
        have record : (step.result (.failedWith result.message)).record = ⟨.success, .failure⟩ := by
          simp [StepResult.record, PlannedStep.result, StepState.failedWith, tolerant]
        exact ⟨_, s.status, rfl, by rw [record]; rfl⟩

theorem notice_eq (s : JobState) (flag : Bool) :
    ∃ status, s.notice flag = { s with context := { s.context with status } } := by
  unfold notice
  split
  · exact ⟨_, rfl⟩
  · exact ⟨s.context.status, rfl⟩

theorem records_of_settled {flag : Bool} (turn : s.turn job flag step = .settled s') :
    s.Records step s' := by
  obtain ⟨status, noticed⟩ := notice_eq s flag
  obtain ⟨diagnostics, h⟩ : ∃ diagnostics,
      ({ s.notice flag with diagnostics } : JobState).Records step s' := by
    obtain ⟨diagnostics, ⟨reason, rfl⟩ | ⟨message, rfl⟩⟩ := turn_eq_settled turn
    · exact ⟨diagnostics, records_skip _ step reason⟩
    · exact ⟨diagnostics, records_complete _ step _⟩
  obtain ⟨state, status', results, context⟩ := h
  rw [noticed] at results context
  exact ⟨state, status', results, context⟩

end Records

end JobState

namespace Run

/-! ## The story of what is recalled -/

def resultsTold (told : List Happening) : List StepResult :=
  told.filterMap fun
    | .stepFinish _ result => some result
    | _ => none

theorem resultsTold_append (told more : List Happening) :
    resultsTold (told ++ more) = resultsTold told ++ resultsTold more :=
  List.filterMap_append

theorem resultsTold_silent (told : List Happening) {what : Happening}
    (silent : resultsTold [what] = []) : resultsTold (told ++ [what]) = resultsTold told := by
  rw [resultsTold_append, silent, List.append_nil]

/-- The context in which an action starts tells the results so far. -/
def Happening.Recalls (job : PlannedJob) (before : List Happening) : Happening → Prop
  | .actionStart _ prepared context => ∃ earlier step later, step.id = prepared.id ∧
      context.Recalls job earlier (step :: later) (resultsTold before)
  | _ => True

/-- A job under way sees the results of the steps behind it. -/
def Stage.Recalls (job : PlannedJob) (results : List StepResult) : Stage → Prop
  | turning r => ∃ earlier, r.state.context.Recalls job earlier r.rest results
  | acting r step _ => ∃ earlier, r.state.context.Recalls job earlier (step :: r.rest) results
  | closing _ | reported .. => True

def ActionsRecall (job : PlannedJob) (told : List Happening) : Prop :=
  ∀ before what after, told = before ++ what :: after → what.Recalls job before

section Recalls

variable {w : World} {place : Nat} {job : PlannedJob} {aborted : Bool} {told : List Happening}
  {x : Stage}

theorem actionsRecall_nil (job : PlannedJob) : ActionsRecall job [] := by
  intro before what after split
  cases List.append_ne_nil_of_right_ne_nil before (List.cons_ne_nil what after) split.symm

theorem ActionsRecall.tell (h : ActionsRecall job told) {what : Happening}
    (recalls : what.Recalls job told) : ActionsRecall job (told ++ [what]) :=
  forall_split_concat h recalls

theorem Stage.recalls_record {r : Running} {step : PlannedStep} {rest : List PlannedStep}
    {s : JobState} {result : StepResult}
    (h : ∃ earlier, r.state.context.Recalls job earlier (step :: rest) (resultsTold told))
    (distinct : (job.steps.map (·.id)).Nodup) (records : r.state.Records step s)
    (last : s.results.getLast? = some result) :
    (turning { r with state := s, rest }).Recalls job
      (resultsTold (told ++ [.stepFinish r.job result])) := by
  obtain ⟨earlier, recalls⟩ := h
  obtain ⟨state, status, grown, context⟩ := records
  rw [grown, List.getLast?_concat] at last
  obtain rfl := Option.some.inj last
  refine ⟨earlier ++ [step], ?_⟩
  rw [context, resultsTold_append]
  exact (recalls.record distinct state).withStatus status

/-- All along its story a job sees the results so far. -/
theorem Story.recalls (distinct : (job.steps.map (·.id)).Nodup)
    (h : Story w place job aborted told x) :
    ActionsRecall job told ∧ x.Recalls job (resultsTold told) := by
  induction h with
  | refused => exact ⟨(actionsRecall_nil job).tell trivial, trivial⟩
  | started => exact ⟨(actionsRecall_nil job).tell trivial, [], JobContext.recalls_start job⟩
  | @settled aborted told r step rest s result before next turn last ih =>
      obtain ⟨actions, recalls⟩ := ih
      rw [Stage.Recalls, next] at recalls
      exact ⟨actions.tell trivial,
        Stage.recalls_record recalls distinct (JobState.records_of_settled turn) last⟩
  | @begun aborted told r step prepared rest s before next turn ih =>
      obtain ⟨actions, earlier, recalls⟩ := ih
      obtain ⟨rfl, -, filled⟩ := JobState.turn_eq_started turn
      obtain ⟨env, inputs, run, rfl⟩ := PlannedStep.prepare_spec filled
      obtain ⟨status, noticed⟩ := JobState.notice_eq r.state aborted
      rw [next] at recalls
      have now : (r.state.notice aborted).context.Recalls job earlier (step :: rest)
          (resultsTold told) := by
        rw [noticed]
        exact recalls.withStatus status
      have started : ActionsRecall job
          (told ++ [.stepStart r.job { step with env, inputs, run }]) := actions.tell trivial
      refine ⟨started.tell ⟨earlier, step, rest, rfl, ?_⟩, earlier, ?_⟩
      · rwa [resultsTold_silent told rfl]
      · rwa [resultsTold_silent _ rfl, resultsTold_silent told rfl]
  | ended before ih =>
      refine ⟨ih.1.tell trivial, ?_⟩
      rw [resultsTold_silent _ rfl]
      exact ih.2
  | completed before last ih =>
      exact ⟨ih.1.tell trivial,
        Stage.recalls_record ih.2 distinct (JobState.records_complete _ _ _) last⟩
  | closed before none ih => exact ⟨ih.1, trivial⟩
  | reported before ih => exact ⟨ih.1.tell trivial, trivial⟩
  | raised before ih => exact ih

end Recalls

namespace Pool

variable {w : World} {place : Nat} {job : PlannedJob} {p : Pool}

theorem Executes.actionsRecall (run : Executes w place job p)
    (distinct : (job.steps.map (·.id)).Nodup) : ActionsRecall job (happenings p.log place) := by
  refine run.tells (actionsRecall_nil job) (fun story => (story.recalls distinct).1)
    (fun j s actions => actions.tell trivial) (fun actions before what after split => ?_)
  have recalls := actions (.jobStart job :: before) what after (congrArg _ split)
  cases what with
  | actionStart => exact recalls
  | _ => trivial

theorem Executes.recalls_of_turning (run : Executes w place job p)
    (distinct : (job.steps.map (·.id)).Nodup) {r : Running} (turning : .turning r ∈ p.board.stages)
    (own : r.place = place) :
    ∃ earlier, r.state.context.Recalls job earlier r.rest
      (resultsTold (happenings p.log place)) := by
  obtain ⟨jobAt, log, found, told, same⟩ := run.told
  obtain ⟨job', found', story⟩ := told.stages (.turning r) turning
  subst own
  obtain rfl := Option.some.inj (found.symm.trans found')
  have recalls := (story.recalls distinct).2
  rcases same with rfl | rfl
  · exact recalls
  · simp only [Stage.place, happenings_start] at recalls
    exact recalls

/-- **The steps that expressions see.**  Take a job whose steps have different ids,
    and any moves of its execution, by itself or among others.  Whenever its next
    step can take its turn, the context of its expressions has exactly one record
    for each earlier step but one whose id is the key of the prototype, that of
    the result which the log tells, and none for this step or a later one.  The
    matrix and the runner are those of the job, and for the templates that see
    the environment of the step nothing but the environment is replaced.  So it
    is with the context in which an action starts. -/
theorem history_law (run : Executes w place job p) (distinct : (job.steps.map (·.id)).Nodup) :
    (∀ r, .advance r ∈ p.ready → r.place = place → ∀ step later, r.rest = step :: later →
      (∃ earlier, (r.view p.aborted).Recalls job earlier (step :: later)
          (resultsTold (happenings p.log place)) ∧
        ((r.view p.aborted).TellsAll (resultsTold (happenings p.log place)) ↔
          ∀ s ∈ earlier, s.id ≠ Dict.prototypeKey)) ∧
      (∀ s ∈ step :: later, (r.view p.aborted).steps.get? s.id = none) ∧
      ∀ env, ∃ value, ((r.view p.aborted).toContext.withEnv env).members =
        Entries.replace "env" value (r.view p.aborted).toContext.members) ∧
    ∀ before j prepared context after,
      happenings p.log place = before ++ .actionStart j prepared context :: after →
      ∃ earlier step later, step.id = prepared.id ∧
        context.Recalls job earlier (step :: later) (resultsTold before) ∧
        (context.TellsAll (resultsTold before) ↔ ∀ s ∈ earlier, s.id ≠ Dict.prototypeKey) ∧
        ∀ s ∈ step :: later, context.steps.get? s.id = none := by
  refine ⟨fun r ready own step later next => ?_, fun before j prepared context after split => ?_⟩
  · obtain ⟨earlier, recalls⟩ := run.recalls_of_turning distinct (turning_of_ready ready) own
    obtain ⟨status, noticed⟩ := JobState.notice_eq r.state p.aborted
    have view : r.view p.aborted = { r.state.context with status } :=
      congrArg JobState.context noticed
    rw [next] at recalls
    rw [view]
    have recalls := recalls.withStatus status
    exact ⟨⟨earlier, recalls, recalls.tellsAll_iff⟩,
      fun s member => recalls.get?_later distinct member,
      fun env => JobContext.members_withEnv _ env⟩
  · obtain ⟨earlier, step, later, same, recalls⟩ := run.actionsRecall distinct before _ after split
    exact ⟨earlier, step, later, same, recalls, recalls.tellsAll_iff,
      fun s member => recalls.get?_later distinct member⟩

/-- A job of two steps; a failure of the first is tolerated. -/
def tolerantFirst : PlannedJob :=
  { oneStep 0 with steps :=
    (oneStep 0).steps.map ({ · with policy := .tolerant }) ++
      (oneStep 0).steps.map ({ · with id := "test" }) }

/-- Behind a failure that is tolerated the second step sees a failure that counts
    as success. -/
theorem history_law_tolerated :
    let w : World := ⟨0, fun _ _ => ⟨none, .completed ⟨false, none⟩, false, []⟩, true, none⟩
    let first : Running :=
      ⟨0, tolerantFirst, JobState.start tolerantFirst, tolerantFirst.steps⟩
    let p := ({ ofJob 0 tolerantFirst false none with ready := [] } : Pool).advance w first
    (tolerantFirst.steps.map (·.id)).Nodup ∧ Executes w 0 tolerantFirst p ∧
      ∃ r step, .advance r ∈ p.ready ∧ r.rest = [step] ∧ step.id = "test" ∧
        (r.view p.aborted).steps.entries.Perm [("lint", ⟨.success, .failure⟩)] ∧
        (r.view p.aborted).steps.get? "test" = none := by
  intro w first p
  have distinct : (tolerantFirst.steps.map (·.id)).Nodup := by decide
  have run : Executes w 0 tolerantFirst p :=
    .alone (c := .never) (.single (@Move.perform w _ [] [] (.advance first) rfl))
  let r : Running := ⟨0, tolerantFirst, (JobState.start tolerantFirst).complete
    { (oneStep 0).steps[0] with policy := .tolerant } ⟨false, none⟩, tolerantFirst.steps.tail⟩
  have ready : p.ready = [.advance r] := by rfl
  have told : resultsTold (happenings p.log 0) =
      [⟨"lint", "lint", .tolerant, .failed "step failed"⟩] := rfl
  have member : .advance r ∈ p.ready := ready ▸ List.mem_singleton.mpr rfl
  obtain ⟨⟨earlier, recalls, -⟩, absent, -⟩ := (history_law run distinct).1 r member rfl _ _ rfl
  rw [told] at recalls
  exact ⟨distinct, run, r, _, member, rfl, rfl, recalls.records, absent _ List.mem_cons_self⟩

/-- A job of two steps; the id of the first is the key of the prototype. -/
def prototypeFirst : PlannedJob :=
  { oneStep 0 with steps :=
    (oneStep 0).steps.map ({ · with id := "__proto__" }) ++
      (oneStep 0).steps.map ({ · with id := "test" }) }

/-- The second step sees no record of the first, which is over. -/
theorem prototype_step_unrecorded :
    let w : World := ⟨0, fun _ _ => ⟨none, .completed ⟨true, none⟩, false, []⟩, true, none⟩
    let first : Running :=
      ⟨0, prototypeFirst, JobState.start prototypeFirst, prototypeFirst.steps⟩
    let p := ({ ofJob 0 prototypeFirst false none with ready := [] } : Pool).advance w first
    (prototypeFirst.steps.map (·.id)).Nodup ∧ Executes w 0 prototypeFirst p ∧
      resultsTold (happenings p.log 0) = [⟨"__proto__", "lint", .fatal, .succeeded⟩] ∧
      ∃ r, p.ready = [.advance r] ∧ r.rest.map (·.id) = ["test"] ∧
        (r.view p.aborted).steps.entries = [] := by
  intro w first p
  have distinct : (prototypeFirst.steps.map (·.id)).Nodup := by decide
  have run : Executes w 0 prototypeFirst p :=
    .alone (c := .never) (.single (@Move.perform w _ [] [] (.advance first) rfl))
  exact ⟨distinct, run, rfl, _, rfl, rfl, rfl⟩

end Pool

end Run

end JobMatrix
