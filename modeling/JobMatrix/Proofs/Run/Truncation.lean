import Mathlib.Data.List.GetD
import JobMatrix.Proofs.Run.Guarding
import JobMatrix.Proofs.Run.Outcome

/-! # Cancellation only truncates

A request to cancel changes nothing of the turns that are over.  It changes
nothing of the turns to come either, if the job has failed before: the job is
not successful any more, and only a successful job notices the request.
-/

namespace JobMatrix

namespace JobState

variable {place : Nat} {job : PlannedJob} {act : Running → PlannedStep → ActionEnd}
  {aborted aborted' : Nat → Bool}

/-! ## Jobs that do not notice -/

theorem turn_of_status {s : JobState} (unsuccessful : s.status ≠ .success) (flag flag' : Bool)
    (step : PlannedStep) : s.turn job flag step = s.turn job flag' step := by
  simp only [turn, notice_of_unsuccessful unsuccessful]

theorem leads_settledBy (s : JobState) (flag : Bool) (step : PlannedStep)
    (how : JobState → PlannedStep → ActionEnd) :
    s.status.Leads ((s.turn job flag step).settledBy how step).status := by
  apply (leads_notice s flag).trans
  cases turn : s.turn job flag step with
  | settled s' => exact leads_of_settled turn
  | started s' prepared =>
      obtain ⟨rfl, -⟩ := turn_eq_started turn
      exact leads_of_complete (s.notice flag) step _

/-- A job that is not successful ends in the same way whenever it is cancelled. -/
theorem runSteps_of_unsuccessful {s : JobState} (unsuccessful : s.status ≠ .success) (i : Nat)
    (steps : List PlannedStep) :
    s.runSteps place job act aborted i steps = s.runSteps place job act aborted' i steps := by
  induction steps generalizing i s with
  | nil => rfl
  | cons step rest ih =>
      rw [runSteps_cons, runSteps_cons, turn_of_status unsuccessful (aborted i) (aborted' i)]
      exact ih ((leads_settledBy s _ step _).ne_success unsuccessful) (i + 1)

/-! ## Runs that agree on the first turns -/

/-- At the first `k` turns from the `i`-th on the two runs are cancelled alike. -/
def Alike (aborted aborted' : Nat → Bool) (i k : Nat) : Prop :=
  ∀ j < k, aborted (i + j) = aborted' (i + j)

theorem Alike.head {i k : Nat} (h : Alike aborted aborted' i (k + 1)) :
    aborted i = aborted' i :=
  h 0 (Nat.succ_pos k)

theorem Alike.tail {i k : Nat} (h : Alike aborted aborted' i (k + 1)) :
    Alike aborted aborted' (i + 1) k := by
  intro j inside
  have same := h (j + 1) (Nat.succ_lt_succ inside)
  rwa [Nat.add_comm j, ← Nat.add_assoc] at same

variable (place job act)

theorem length_results_turn (s : JobState) (flag : Bool) (step : PlannedStep)
    (how : JobState → PlannedStep → ActionEnd) :
    ((s.turn job flag step).settledBy how step).results.length = s.results.length + 1 := by
  obtain ⟨result, -, results, -⟩ := settles_turn s job flag step how
  rw [results, List.length_append, List.length_singleton]

theorem take_results_runSteps (s : JobState) (aborted : Nat → Bool) (i : Nat)
    (steps : List PlannedStep) :
    (s.runSteps place job act aborted i steps).results.take s.results.length = s.results := by
  obtain ⟨results, -, same, -⟩ := settles_runSteps place job act aborted i s steps
  rw [same, List.take_left]

theorem Alike.results {i k : Nat} (h : Alike aborted aborted' i k) (s : JobState)
    (steps : List PlannedStep) :
    (s.runSteps place job act aborted' i steps).results.take (s.results.length + k) =
      (s.runSteps place job act aborted i steps).results.take (s.results.length + k) := by
  induction steps generalizing i k s with
  | nil => rfl
  | cons step rest ih =>
      cases k with
      | zero => rw [Nat.add_zero, take_results_runSteps, take_results_runSteps]
      | succ k =>
          have later := ih h.tail ((s.turn job (aborted' i) step).settledBy
            (fun s prepared => act ⟨place, job, s, rest⟩ prepared) step)
          rw [length_results_turn, Nat.succ_add_eq_add_succ] at later
          rw [runSteps_cons, runSteps_cons, h.head]
          exact later

theorem Alike.turns {i k : Nat} (h : Alike aborted aborted' i k) (s : JobState)
    (steps : List PlannedStep) :
    (s.turns place job act aborted' i steps).take k =
      (s.turns place job act aborted i steps).take k := by
  induction steps generalizing i k s with
  | nil => rfl
  | cons step rest ih =>
      cases k with
      | zero => rfl
      | succ k =>
          rw [JobState.turns, JobState.turns, List.take_succ_cons, List.take_succ_cons, h.head,
            ih h.tail]

theorem Alike.absorbed {i k : Nat} (h : Alike aborted aborted' i k) {s : JobState}
    {flags : List Bool} (consistent : s.Consistent flags) (steps : List PlannedStep)
    (stopped : ∃ r ∈ (s.runSteps place job act aborted i steps).results.take
      (s.results.length + k), r.stops = true) :
    s.runSteps place job act aborted' i steps = s.runSteps place job act aborted i steps := by
  induction steps generalizing i k s flags with
  | nil => rfl
  | cons step rest ih =>
      cases k with
      | zero =>
          rw [Nat.add_zero, take_results_runSteps] at stopped
          have failed : s.status = .failure := by
            rw [consistent.failure_iff, List.find?_isSome]
            exact stopped
          exact runSteps_of_unsuccessful (failed ▸ JobStatus.noConfusion) i (step :: rest)
      | succ k =>
          have shift : s.results.length + (k + 1) = s.results.length + 1 + k := by omega
          rw [runSteps_cons, shift, ← length_results_turn job s (aborted i) step] at stopped
          rw [runSteps_cons, runSteps_cons, ← h.head]
          exact ih h.tail (consistent.turn job (aborted i) step _) stopped

/-- Each turn has one diagnostic at most, of its own step. -/
theorem sublist_of_complaints (found : List (JobState × PlannedStep)) :
    List.Sublist ((found.filterMap (complaint? job)).map (·.step))
      ((found.map Prod.snd).map fun step => some step.id) := by
  induction found with
  | nil => exact .slnil
  | cons head rest ih =>
      cases complaint : complaint? job head with
      | none =>
          rw [List.filterMap_cons_none complaint]
          exact ih.cons _
      | some d =>
          rw [List.filterMap_cons_some complaint]
          obtain ⟨fault, -, rfl⟩ := Option.map_eq_some_iff.mp complaint
          exact ih.cons_cons _

/-- The diagnostics of some turns are those of the first ones and those of the
    others. -/
theorem split_diagnostics (k i : Nat) (s : JobState) (aborted : Nat → Bool)
    (steps : List PlannedStep) : ∃ late,
      (s.runSteps place job act aborted i steps).diagnostics = s.diagnostics ++
        (((s.turns place job act aborted i steps).take k).filterMap (complaint? job) ++ late) ∧
      List.Sublist (late.map (·.step)) ((steps.drop k).map fun step => some step.id) := by
  obtain ⟨-, -, -, diagnostics⟩ := settles_runSteps place job act aborted i s steps
  refine ⟨((s.turns place job act aborted i steps).drop k).filterMap (complaint? job), ?_, ?_⟩
  · rw [← List.filterMap_append, List.take_append_drop]
    exact diagnostics
  · have late := sublist_of_complaints job ((s.turns place job act aborted i steps).drop k)
    rwa [List.map_drop, map_step_turns] at late

theorem Alike.diagnostics {i k : Nat} (h : Alike aborted aborted' i k) (s : JobState)
    (steps : List PlannedStep) : ∃ early late late',
      (s.runSteps place job act aborted i steps).diagnostics = s.diagnostics ++ (early ++ late) ∧
      (s.runSteps place job act aborted' i steps).diagnostics = s.diagnostics ++ (early ++ late') ∧
      List.Sublist (early.map (·.step)) ((steps.take k).map fun step => some step.id) ∧
      List.Sublist (late.map (·.step)) ((steps.drop k).map fun step => some step.id) ∧
      List.Sublist (late'.map (·.step)) ((steps.drop k).map fun step => some step.id) := by
  obtain ⟨late, diagnostics, others⟩ := split_diagnostics place job act k i s aborted steps
  obtain ⟨late', diagnostics', others'⟩ := split_diagnostics place job act k i s aborted' steps
  have early := sublist_of_complaints job ((s.turns place job act aborted i steps).take k)
  rw [List.map_take, map_step_turns] at early
  rw [h.turns] at diagnostics'
  exact ⟨_, late, late', diagnostics, diagnostics', early, others, others'⟩

end JobState

/-- The second outcome has the results and the diagnostics of the first for the
    first `k` steps; if one of these steps has stopped the job, it is the first. -/
structure JobOutcome.Shares (job : PlannedJob) (k : Nat) (o o' : JobOutcome) : Prop where
  ids : (o.steps.take k).map (·.id) = (job.steps.take k).map (·.id)
  results : o'.steps.take k = o.steps.take k
  diagnostics : ∃ early late late',
    o.diagnostics = early ++ late ∧ o'.diagnostics = early ++ late' ∧
    List.Sublist (early.map (·.step)) ((job.steps.take k).map fun step => some step.id) ∧
    List.Sublist (late.map (·.step)) ((job.steps.drop k).map fun step => some step.id) ∧
    List.Sublist (late'.map (·.step)) ((job.steps.drop k).map fun step => some step.id)
  absorbed : (∃ r ∈ o.steps.take k, r.stops = true) → o' = o

theorem PlannedJob.ids_runAlone (place : Nat) (job : PlannedJob)
    (act : Running → PlannedStep → ActionEnd) (aborted : Nat → Bool) :
    (job.runAlone place act aborted).steps.map (·.id) = job.steps.map (·.id) := by
  obtain ⟨results, settles, same, -⟩ := JobState.settles_runSteps place job act aborted 0
    (JobState.start job) job.steps
  have whole : (job.runAlone place act aborted).steps = results := same
  have triples := congrArg (List.map Prod.fst) (JobState.map_of_settles settles)
  rwa [JobState.map_step_turns, List.map_map, List.map_map, ← whole] at triples

theorem PlannedJob.shares_runAlone (place : Nat) (job : PlannedJob)
    (act : Running → PlannedStep → ActionEnd) {aborted aborted' : Nat → Bool} {k : Nat}
    (alike : ∀ j < k, aborted j = aborted' j) :
    (job.runAlone place act aborted).Shares job k (job.runAlone place act aborted') := by
  have h : JobState.Alike aborted aborted' 0 k := by
    intro j inside
    rw [Nat.zero_add]
    exact alike j inside
  have first : (JobState.start job).results.length + k = k := Nat.zero_add k
  refine ⟨?_, ?_, h.diagnostics place job act (JobState.start job) job.steps, fun stopped => ?_⟩
  · rw [List.map_take, List.map_take, job.ids_runAlone]
  · have results := h.results place job act (JobState.start job) job.steps
    rw [first] at results
    exact results
  · have same := h.absorbed place job act (JobState.consistent_start job) job.steps
      (by rw [first]; exact stopped)
    exact congrArg (·.outcome job) same

namespace Run

/-! ## The turns that find the run cancelled -/

theorem Watch.see_grows (w : World) (s : Watch) (e : Event) :
    (s.cancelled = true → (s.see w e).cancelled = true) ∧
    ∃ flags, (s.see w e).flags = s.flags ++ flags ∧ ∀ flag ∈ flags, flag = s.cancelled := by
  unfold see
  cases e.what with
  | abort => exact ⟨fun cancelled => by simp [cancelled], [], by simp, nofun⟩
  | stepStart => exact ⟨id, [s.cancelled], rfl, by simp⟩
  | stepFinish =>
      dsimp only
      split
      · exact ⟨id, [], by simp, nofun⟩
      · exact ⟨id, [s.cancelled], rfl, by simp⟩
  | _ => exact ⟨id, [], by simp, nofun⟩

/-- Once the run is cancelled, all turns find it so; as long as it is not, none
    does. -/
theorem Watch.foldl_see_grows (w : World) (s : Watch) (log : List Event) :
    (s.cancelled = true → (log.foldl (see w) s).cancelled = true) ∧
    ∃ flags, (log.foldl (see w) s).flags = s.flags ++ flags ∧
      ∀ flag ∈ flags, (s.cancelled = true → flag = true) ∧
        ((log.foldl (see w) s).cancelled = false → flag = false) := by
  induction log generalizing s with
  | nil => exact ⟨id, [], (List.append_nil _).symm, nofun⟩
  | cons e rest ih =>
      obtain ⟨stays, flags, grown, now⟩ := s.see_grows w e
      obtain ⟨later, more, moreGrown, all⟩ := ih (s.see w e)
      refine ⟨later ∘ stays, flags ++ more, ?_, List.forall_mem_append.mpr ⟨?_, ?_⟩⟩
      · rw [List.foldl_cons, moreGrown, grown, List.append_assoc]
      · intro flag member
        rw [now flag member]
        refine ⟨id, fun uncancelled => Bool.eq_false_iff.mpr fun cancelled => ?_⟩
        exact Bool.false_ne_true (uncancelled.symm.trans (later (stays cancelled)))
      · intro flag member
        exact ⟨(all flag member).1 ∘ stays, (all flag member).2⟩

/-- A job by itself ends with an outcome in some run, at whose turns the run is
    cancelled as the flags say. -/
def EndsUnder (w : World) (place : Nat) (job : PlannedJob) (flags : List Bool)
    (o : JobOutcome) : Prop :=
  ∃ c p, Pool.Reaches w (Pool.ofJob place job (c.aborted && w.listens) c.abortAt) p ∧
    p.failure = none ∧ p.IsOver ∧ p.outcomeAt? place = some o ∧ turnFlags w c p.log = flags

theorem EndsUnder.eq_runAlone {w : World} {place : Nat} {job : PlannedJob} {flags : List Bool}
    {o : JobOutcome} (h : EndsUnder w place job flags o) (act : Running → PlannedStep → ActionEnd)
    (same : ∀ r step, (w.behaviour r step).ending.result = (act r step).result) :
    o = job.runAlone place act (flags.getD · false) := by
  obtain ⟨c, p, reached, ok, ended, present, rfl⟩ := h
  rw [Option.some.inj (present.symm.trans (alone_of_ofJob reached ok ended).2)]
  exact congrArg (·.outcome job) (JobState.runSteps_congr same _ 0 _ _)

namespace Pool

section Turns

variable {w : World} {place : Nat} {job : PlannedJob} {c : Cancellation} {p q : Pool}
  (reached : Reaches w (ofJob place job (c.aborted && w.listens) c.abortAt) p)
include reached

/-- The turns between two moments of a run. -/
theorem turnFlags_of_reaches (goesOn : Reaches w p q) (ok : q.failure = none) :
    ∃ flags, turnFlags w c q.log = turnFlags w c p.log ++ flags ∧
      (p.aborted = true → flags = List.replicate flags.length true) ∧
      (q.aborted = false → flags = List.replicate flags.length false) := by
  obtain ⟨log, same⟩ := Board.log_steps (steps_of_reaches goesOn)
  obtain ⟨-, flags, grown, all⟩ := Watch.foldl_see_grows w (Watch.ofLog w c p.log) log
  have last : log.foldl (Watch.see w) (Watch.ofLog w c p.log) = Watch.ofLog w c q.log := by
    rw [show q.log = p.log ++ log from same.symm, Watch.ofLog, Watch.ofLog, List.foldl_append]
  have okBefore := (keeps_of_reaches goesOn).failure_eq_none ok
  have before : p.aborted = (Watch.ofLog w c p.log).cancelled :=
    (watched_of_ofJob reached okBefore).aborted
  have after : q.aborted = (Watch.ofLog w c q.log).cancelled :=
    (watched_of_ofJob (reached.trans goesOn) ok).aborted
  rw [last] at grown all
  refine ⟨flags, grown, fun cancelled => ?_, fun unaborted => ?_⟩
  · refine List.eq_replicate_of_mem fun flag member => (all flag member).1 ?_
    rw [← before, cancelled]
  · refine List.eq_replicate_of_mem fun flag member => (all flag member).2 ?_
    rw [← after, unaborted]

theorem length_turnFlags (ok : p.failure = none) {r : Running} (ready : .advance r ∈ p.ready) :
    (turnFlags w c p.log).length + r.rest.length = job.steps.length := by
  obtain ⟨-, -, x, only, watched⟩ := watched_of_ofJob reached ok
  have turning : .turning r ∈ p.board.stages := turning_of_ready ready
  rw [only, Multiset.mem_singleton] at turning
  subst turning
  exact watched.2.position

/-- A request to cancel parts the turns of a run. -/
theorem turnFlags_of_request (listens : w.listens = true) (unaborted : p.aborted = false)
    {r : Running} (ready : .advance r ∈ p.ready) (goesOn : Reaches w (p.abort w) q)
    (ok : q.failure = none) (ended : q.IsOver) {k : Nat}
    (position : k + r.rest.length = job.steps.length) :
    turnFlags w c q.log = List.replicate k false ++ List.replicate r.rest.length true := by
  have okBefore : p.failure = none := (keeps_of_reaches goesOn).failure_eq_none ok
  have first : Reaches w (ofJob place job (c.aborted && w.listens) c.abortAt)
      (ofJob place job (c.aborted && w.listens) c.abortAt) := .refl
  obtain ⟨early, grown, -, allOpen⟩ := turnFlags_of_reaches first reached okBefore
  obtain ⟨late, grown', allCancelled, -⟩ := turnFlags_of_reaches (reached.tail .abort) goesOn ok
  have none : turnFlags w c (ofJob place job (c.aborted && w.listens) c.abortAt).log = [] := rfl
  have request : turnFlags w c (p.abort w).log = turnFlags w c p.log := by
    simp only [turnFlags, abort, record, Watch.ofLog_concat, Watch.see]
  rw [none, List.nil_append] at grown
  rw [request, grown] at grown'
  have soFar := length_turnFlags reached okBefore ready
  have all := (alone_of_ofJob ((reached.tail .abort).trans goesOn) ok ended).1
  rw [grown] at soFar
  rw [grown', List.length_append] at all
  have cancelled : (p.abort w).aborted = true := Bool.or_eq_true_iff.mpr (.inr listens)
  rw [grown', allOpen unaborted, allCancelled cancelled, show early.length = k by omega,
    show late.length = r.rest.length by omega]

end Turns

theorem reaches_turns {w : World} (quiet : w.observer = none)
    (silent : ∀ r step, (w.behaviour r step).aborts = false) {place : Nat} {job : PlannedJob}
    {p : Pool} {aborted : Bool} {s : JobState} {rest : List PlannedStep}
    (h : p.Holds [.advance ⟨place, job, s, rest⟩] aborted) (n : Nat) : ∃ q s', Reaches w p q ∧
      q.Holds [.advance ⟨place, job, s', rest.drop n⟩] aborted := by
  induction n generalizing p s rest with
  | zero => exact ⟨p, s, .refl, h⟩
  | succ n ih =>
      cases rest with
      | nil => exact ⟨p, s, .refl, h⟩
      | cons step rest =>
          obtain ⟨p', turn, h⟩ := reaches_turn quiet silent h rfl
          obtain ⟨q, s', turns, h⟩ := ih h
          exact ⟨q, s', turn.trans turns, h⟩

end Pool

/-- A job by itself can be cancelled right before any of its turns. -/
theorem exists_endsUnder (w : World) (place : Nat) (job : PlannedJob) {k : Nat}
    (position : k ≤ job.steps.length) :
    ∃ o, EndsUnder w.cancellable place job
      (List.replicate k false ++ List.replicate (job.steps.length - k) true) o := by
  let w := w.cancellable
  have quiet : w.observer = none := rfl
  have silent : ∀ r step, (w.behaviour r step).aborts = false := fun _ _ => rfl
  have first : (Pool.ofJob place job (Cancellation.never.aborted && w.listens)
      Cancellation.never.abortAt).Holds
      [.advance ⟨place, job, JobState.start job, job.steps⟩] false := ⟨rfl, rfl, rfl, rfl, rfl⟩
  obtain ⟨p, s, turns, h⟩ := Pool.reaches_turns quiet silent first k
  have cancelled : (p.abort w).Holds [.advance ⟨place, job, s, job.steps.drop k⟩] true :=
    ⟨h.ready, h.timers, h.waiting, h.outcomes, Bool.or_true _⟩
  obtain ⟨q, s', later, h'⟩ := Pool.reaches_turns quiet silent cancelled (job.steps.length - k)
  rw [List.drop_drop, Nat.add_sub_cancel' position, List.drop_length] at h'
  obtain ⟨last, report, ended, outcome⟩ :=
    Pool.reaches_report (w := w) (h'.taken.lineUp (.report _))
  have goesOn : Pool.Reaches w (p.abort w) last := (later.tail h'.perform).trans report
  have reached := (turns.tail .abort).trans goesOn
  have ok := Pool.failure_of_reaches quiet reached
  refine ⟨_, .never, last, reached, ok, ended, outcome, ?_⟩
  have ready : .advance ⟨place, job, s, job.steps.drop k⟩ ∈ p.ready :=
    h.ready ▸ List.mem_singleton.mpr rfl
  have left : (job.steps.drop k).length = job.steps.length - k := List.length_drop
  have flags := Pool.turnFlags_of_request turns rfl h.aborted ready goesOn ok ended
    (k := k) (by rw [left]; omega)
  rwa [left] at flags

/-- Without a signal a job by itself takes all its turns uncancelled. -/
theorem exists_endsUnder_deaf (w : World) (place : Nat) (job : PlannedJob) :
    ∃ o, EndsUnder w.deaf place job (List.replicate job.steps.length false) o := by
  let w := w.deaf
  let last := (Pool.ofJob place job (Cancellation.never.aborted && w.listens)
    Cancellation.never.abortAt).run w
  have reached : Pool.Reaches w _ last := Pool.reaches_run w _
  have ok := Pool.failure_of_reaches (w := w) rfl reached
  obtain ⟨complete, present⟩ := alone_of_ofJob reached ok (Pool.isOver_run rfl rfl)
  have unaborted : last.aborted = false :=
    Board.aborted_steps rfl (Pool.steps_of_reaches reached)
  obtain ⟨flags, grown, -, allOpen⟩ := Pool.turnFlags_of_reaches (w := w) .refl reached ok
  refine ⟨_, .never, last, reached, ok, Pool.isOver_run rfl rfl, present, ?_⟩
  have whole : turnFlags w .never last.log = flags := grown
  rw [whole] at complete ⊢
  rw [allOpen unaborted, complete]

/-- **Cancellation only truncates.**  A job that runs by itself, how its actions
    end being settled, has a run without a signal, and for each of its turns a
    run that is cancelled right before it.  Of any two such runs, in whatever
    worlds and orders, the second has the results and the diagnostics of the first
    for the steps before that turn; and if one of these has failed under the fatal
    policy, the outcomes are equal. -/
theorem cancellation_truncates (w : World) (place : Nat) (job : PlannedJob) {k : Nat}
    (position : k ≤ job.steps.length) :
    (∃ o, EndsUnder w.deaf place job (List.replicate job.steps.length false) o) ∧
    (∃ o, EndsUnder w.cancellable place job
      (List.replicate k false ++ List.replicate (job.steps.length - k) true) o) ∧
    ∀ w₁ w₂ : World,
      (∀ r step, (w₁.behaviour r step).ending.result = (w.behaviour r step).ending.result) →
      (∀ r step, (w₂.behaviour r step).ending.result = (w.behaviour r step).ending.result) →
      ∀ o o', EndsUnder w₁ place job (List.replicate job.steps.length false) o →
        EndsUnder w₂ place job
          (List.replicate k false ++ List.replicate (job.steps.length - k) true) o' →
        o.Shares job k o' := by
  refine ⟨exists_endsUnder_deaf w place job, exists_endsUnder w place job position,
    fun w₁ w₂ same₁ same₂ o o' whole cut => ?_⟩
  rw [whole.eq_runAlone w.endings same₁, cut.eq_runAlone w.endings same₂]
  refine job.shares_runAlone place w.endings fun j before => ?_
  rw [List.getD_append _ _ _ _ (by simpa using before), List.getD_replicate _ before,
    List.getD_replicate _ (before.trans_le position)]

/-- A job of two steps, cancelled between them. -/
theorem cancellation_truncates_between :
    let w := World.dry true none
    let job := { oneStep 0 with steps := (oneStep 0).steps ++ (oneStep 0).steps }
    1 ≤ job.steps.length ∧ ∃ o o', EndsUnder w.deaf 0 job [false, false] o ∧
      EndsUnder w.cancellable 0 job [false, true] o' ∧ o.Shares job 1 o' := by
  intro w job
  have position : 1 ≤ job.steps.length := by decide
  obtain ⟨⟨o, whole⟩, ⟨o', cut⟩, shares⟩ := cancellation_truncates w 0 job position
  exact ⟨position, o, o', whole, cut,
    shares w.deaf w.cancellable (fun _ _ => rfl) (fun _ _ => rfl) o o' whole cut⟩

end Run

end JobMatrix
