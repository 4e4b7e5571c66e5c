import Mathlib.Data.Multiset.Range
import JobMatrix.Proofs.Run.Story

/-! # A run that is over

No worker leaves a run while jobs wait, so a run that is over has taken them
all.  The report then has one outcome for each job, in the order of the jobs,
and each outcome is the end of the story that the log tells of its job.
-/

namespace JobMatrix.Run

namespace Board

theorem waiting_step {w : World} {failFast lossy : Bool} {b b' : Board}
    (step : Step w failFast lossy b b') : b'.waiting <:+ b.waiting := by
  cases step with
  | refuse | start => exact List.suffix_cons _ _
  | settle | begin | ended | complete | close | report | abort | balk | lose =>
      exact List.suffix_rfl

theorem waiting_steps {w : World} {failFast lossy : Bool} {b b' : Board}
    (steps : Steps w failFast lossy b b') : b'.waiting <:+ b.waiting := by
  induction steps with
  | refl => exact List.suffix_rfl
  | tail _ step ih => exact (waiting_step step).trans ih

end Board

namespace Pool

/-! ## Workers -/

/-- A run has all its workers while jobs wait, and never more. -/
theorem busy_of_reaches {w : World} {p q : Pool} (h : Reaches w p q) (ok : q.failure = none) :
    q.busy ≤ p.busy ∧ (q.waiting ≠ [] → q.busy = p.busy) := by
  induction h with
  | refl => exact ⟨Nat.le_refl _, fun _ => rfl⟩
  | @tail q q' moves move ih =>
      have ih := ih ((keeps_of_move move).failure_eq_none ok)
      have shorter : q'.waiting <:+ q.waiting := Board.waiting_steps (steps_of_move move)
      -- A worker leaves only when no job waits, and no job comes back to wait.
      have changed := busy_of_move move ok
      refine ⟨by omega, fun waits => ?_⟩
      have still : q.waiting ≠ [] := by
        intro none
        rw [none, List.suffix_nil] at shorter
        exact waits shorter
      have := ih.2 still
      rcases changed with same | ⟨none, -⟩
      · exact same.trans this
      · exact absurd none still

theorem busy_start (w : World) (jobs : List PlannedJob) (limit : Option Number) (failFast : Bool)
    (c : Cancellation) : (start w jobs limit failFast c).busy = workers limit jobs.length := by
  simp only [start, ofJobs, busy, List.length_replicate, Nat.add_eq_left, List.countP_eq_zero]
  intro t member
  unfold abortTimers at member
  split at member
  · cases member
  · rw [List.mem_singleton.mp member]
    exact Bool.false_ne_true

theorem workers_pos (limit : Option Number) (jobs : Nat) : 0 < workers limit jobs := by
  unfold workers
  split <;> omega

theorem busy_of_isOver {p : Pool} (ended : p.IsOver) : p.busy = 0 := by
  simp only [busy, ended.1, List.length_nil, Nat.zero_add, List.countP_eq_zero]
  intro t member
  simp only [ended.2 t member, Bool.false_eq_true, not_false_eq_true]

theorem waiting_of_isOver {w : World} {jobs : List PlannedJob}
    {limit : Option Number} {failFast : Bool} {c : Cancellation} {p : Pool}
    (reached : Reaches w (start w jobs limit failFast c) p) (ended : p.IsOver)
    (ok : p.failure = none) : p.waiting = [] := by
  by_contra waits
  have full := (busy_of_reaches reached ok).2 waits
  rw [busy_start, busy_of_isOver ended] at full
  have := workers_pos limit jobs.length
  omega

/-! ## Outcomes -/

theorem stages_of_isOver {p : Pool} (ended : p.IsOver) :
    p.stages = ↑(p.outcomes.map fun entry => Stage.reported entry.1 entry.2) := by
  have none : p.timers.flatMap (fun t => t.alarm.stages) = [] := by
    rw [List.flatMap_eq_nil_iff]
    intro t member
    have ends := ended.2 t member
    cases a : t.alarm with
    | abort => rfl
    | actionEnd r step b => simp only [a, Alarm.endsAction, Bool.true_eq_false] at ends
  simp only [stages, ended.1, none, List.flatMap_nil, Multiset.coe_nil, zero_add]

theorem outcomeAt?_eq_some {p : Pool} (distinct : (p.outcomes.map Prod.fst).Nodup) {place : Nat}
    {o : JobOutcome} (h : (place, o) ∈ p.outcomes) : p.outcomeAt? place = some o := by
  unfold outcomeAt?
  generalize p.outcomes = outcomes at distinct h
  induction outcomes with
  | nil => cases h
  | cons entry rest ih =>
      rw [List.map_cons, List.nodup_cons] at distinct
      rcases List.mem_cons.mp h with rfl | h
      · simp
      · have other : entry.1 ≠ place := by
          intro same
          exact distinct.1 (same ▸ List.mem_map_of_mem h)
        rw [List.find?_cons_of_neg (by simpa using other)]
        exact ih distinct.2 h

theorem map_some_outcomesInOrder {p : Pool} {jobs : Nat}
    (all : ∀ i < jobs, (p.outcomeAt? i).isSome) :
    (p.outcomesInOrder jobs).map some = (List.range jobs).map p.outcomeAt? := by
  unfold outcomesInOrder
  have all : ∀ i ∈ List.range jobs, (p.outcomeAt? i).isSome :=
    fun i member => all i (List.mem_range.mp member)
  generalize List.range jobs = places at all
  induction places with
  | nil => rfl
  | cons i rest ih =>
      obtain ⟨o, found⟩ := Option.isSome_iff_exists.mp (all i List.mem_cons_self)
      rw [List.filterMap_cons_some found, List.map_cons, List.map_cons, found,
        ih fun j member => all j (List.mem_cons_of_mem i member)]

/-! ## The stories of a run -/

theorem stages_start (w : World) (jobs : List PlannedJob) (limit : Option Number)
    (failFast : Bool) (c : Cancellation) : (start w jobs limit failFast c).stages = 0 := by
  simp only [stages, start, ofJobs, abortTimers]
  split <;> simp [Task.stages, Alarm.stages]

theorem waiting_start (w : World) (jobs : List PlannedJob) (limit : Option Number)
    (failFast : Bool) (c : Cancellation) :
    (start w jobs limit failFast c).waiting.map Prod.fst = List.range jobs.length := by
  simp only [start, ofJobs, List.map_map]
  exact (List.zipIdx_map_snd 0 jobs).trans List.range_eq_range'.symm

theorem places_start (w : World) (jobs : List PlannedJob) (limit : Option Number)
    (failFast : Bool) (c : Cancellation) :
    (start w jobs limit failFast c).board.places = Multiset.range jobs.length := by
  simp only [Board.places, board, stages_start, waiting_start, Multiset.map_zero, add_zero,
    Multiset.range]

theorem told_start (w : World) (jobs : List PlannedJob) (limit : Option Number)
    (failFast : Bool) (c : Cancellation) :
    (start w jobs limit failFast c).board.Told w fun i => jobs[i]? := by
  refine ⟨?_, fun entry member => ?_, fun x member => ?_⟩
  · rw [places_start]
    exact Multiset.nodup_range jobs.length
  · obtain ⟨⟨job, place⟩, position, rfl⟩ := List.mem_map.mp member
    exact ⟨List.mem_zipIdx_iff_getElem?.mp position, rfl⟩
  · simp only [board, stages_start, Multiset.notMem_zero] at member

theorem outcomeAt?_of_reported {p : Pool} (ended : p.IsOver) (distinct : p.board.places.Nodup)
    {i : Nat} {o : JobOutcome} (member : Stage.reported i o ∈ p.stages) :
    p.outcomeAt? i = some o := by
  rw [stages_of_isOver ended, Multiset.mem_coe] at member
  obtain ⟨⟨place, o⟩, entry, ⟨⟩⟩ := List.mem_map.mp member
  have distinct : (p.stages.map Stage.place).Nodup := Multiset.nodup_add.mp distinct |>.2.1
  rw [stages_of_isOver ended, Multiset.map_coe, Multiset.coe_nodup, List.map_map] at distinct
  exact outcomeAt?_eq_some distinct entry

theorem story_of_told {w : World} {jobAt : Nat → Option PlannedJob} {p : Pool} (ended : p.IsOver)
    {log : List Event} (told : ({ p.board with log } : Board).Told w jobAt)
    (waiting : p.waiting = []) {i : Nat} (member : i ∈ p.board.places) {job : PlannedJob}
    (found : jobAt i = some job) :
    ∃ o, p.outcomeAt? i = some o ∧ Story w i job p.aborted (happenings log i) (.reported i o) := by
  have waiting : p.board.waiting = [] := waiting
  rw [Board.places, waiting, List.map_nil, Multiset.coe_nil, zero_add] at member
  obtain ⟨x, present, rfl⟩ := Multiset.mem_map.mp member
  have reported := present
  rw [show p.board.stages = _ from stages_of_isOver ended, Multiset.mem_coe] at reported
  obtain ⟨⟨place, o⟩, -, rfl⟩ := List.mem_map.mp reported
  obtain ⟨job', found', story⟩ := told.stages (.reported place o) present
  have same : job' = job := Option.some.inj (found'.symm.trans found)
  exact ⟨o, outcomeAt?_of_reported ended told.distinct present, same ▸ story⟩

section Runs

variable {w : World} {jobs : List PlannedJob} {limit : Option Number} {failFast : Bool}
  {c : Cancellation} {p : Pool} (reached : Reaches w (start w jobs limit failFast c) p)
include reached

theorem steps_of_start : Board.Steps w failFast p.failure.isSome
    (start w jobs limit failFast c).board p.board :=
  steps_of_reaches reached

theorem told_of_start : p.board.Told w fun i => jobs[i]? :=
  (told_start w jobs limit failFast c).steps (steps_of_start reached)

variable (ok : p.failure = none)
include ok

/-- A run loses no job while no observer fails. -/
theorem lossless_of_start :
    Board.Steps w failFast false (start w jobs limit failFast c).board p.board := by
  have steps := steps_of_start reached
  rwa [ok, Option.isSome_none] at steps

theorem places_of_start : p.board.places = Multiset.range jobs.length :=
  (Board.places_steps (lossless_of_start reached ok)).trans (places_start w jobs limit failFast c)

variable (ended : p.IsOver)
include ended

theorem story_of_isOver {i : Nat} {job : PlannedJob} (found : jobs[i]? = some job) :
    ∃ o, p.outcomeAt? i = some o ∧
      Story w i job p.aborted (happenings p.log i) (.reported i o) := by
  apply story_of_told ended (told_of_start reached) (waiting_of_isOver reached ended ok) _ found
  rw [places_of_start reached ok, Multiset.mem_range]
  exact (List.getElem?_eq_some_iff.mp found).1

theorem outcomeAt?_isSome {i : Nat} (inside : i < jobs.length) : (p.outcomeAt? i).isSome := by
  obtain ⟨o, present, -⟩ := story_of_isOver reached ok ended (List.getElem?_eq_getElem inside)
  rw [present]
  rfl

theorem getElem?_outcomesInOrder {i : Nat} {job : PlannedJob} (found : jobs[i]? = some job) :
    (p.outcomesInOrder jobs.length)[i]? = p.outcomeAt? i := by
  have inside : i < jobs.length := (List.getElem?_eq_some_iff.mp found).1
  have all : ∀ j < jobs.length, (p.outcomeAt? j).isSome :=
    fun j within => outcomeAt?_isSome reached ok ended within
  have mapped := congrArg (·[i]?) (map_some_outcomesInOrder all)
  simp only [List.getElem?_map, List.getElem?_range inside, Option.map_some] at mapped
  obtain ⟨o, present, same⟩ := Option.map_eq_some_iff.mp mapped
  rw [present, same]

theorem length_outcomesInOrder : (p.outcomesInOrder jobs.length).length = jobs.length := by
  have all : ∀ j < jobs.length, (p.outcomeAt? j).isSome :=
    fun j within => outcomeAt?_isSome reached ok ended within
  have mapped := congrArg List.length (map_some_outcomesInOrder all)
  simpa only [List.length_map, List.length_range] using mapped

end Runs

end Pool

end JobMatrix.Run
