import JobMatrix.Proofs.Run.Ledger
import JobMatrix.Proofs.Run.Verdict

/-! # One job at a time

With a limit of one at most one job is under way.  Under fail-fast nothing can
then cancel a job that runs, since only another one could: the jobs end as they
do alone up to the first that fails, and all behind it are refused.  What has
been reported and what is still to come of the jobs in the queue make the same
whole at every moment of the run.
-/

namespace JobMatrix.Run

def World.alone (w : World) (place : Nat) (job : PlannedJob) : JobOutcome :=
  job.runAlone place w.endings fun _ => false

def World.fails (w : World) (place : Nat) (job : PlannedJob) : Bool :=
  (w.alone place job).status = .failed

/-! ## What is to come -/

/-- The outcomes of jobs that are taken one at a time, in a run that is stopped
    already or not: the first that fails stops it, and all behind are refused. -/
def inTurn (w : World) : Bool → List (Nat × PlannedJob) → List (Nat × JobOutcome)
  | _, [] => []
  | true, (place, job) :: rest => (place, job.cancelled) :: inTurn w true rest
  | false, (place, job) :: rest =>
      (place, w.alone place job) :: inTurn w (w.fails place job) rest

def startsInTurn (w : World) : Bool → List (Nat × PlannedJob) → List Nat
  | _, [] | true, _ => []
  | false, (place, job) :: rest => place :: startsInTurn w (w.fails place job) rest

/-- Whether a run of these jobs in turn is stopped behind them. -/
def stopsBehind (w : World) (stopped : Bool) (entries : List (Nat × PlannedJob)) : Bool :=
  stopped || entries.any fun entry => w.fails entry.1 entry.2

theorem startsInTurn_true (w : World) (entries : List (Nat × PlannedJob)) :
    startsInTurn w true entries = [] := by
  cases entries <;> rfl

theorem stopsBehind_nil (w : World) (stopped : Bool) : stopsBehind w stopped [] = stopped :=
  Bool.or_false stopped

theorem stopsBehind_cons (w : World) (stopped : Bool) (place : Nat) (job : PlannedJob)
    (entries : List (Nat × PlannedJob)) :
    stopsBehind w stopped ((place, job) :: entries) =
      stopsBehind w (stopped || w.fails place job) entries :=
  (Bool.or_assoc ..).symm

theorem getElem?_inTurn (w : World) (stopped : Bool) (entries : List (Nat × PlannedJob))
    (n : Nat) : (inTurn w stopped entries)[n]? = entries[n]?.map fun entry =>
      (entry.1, if stopsBehind w stopped (entries.take n) then entry.2.cancelled
        else w.alone entry.1 entry.2) := by
  induction entries generalizing stopped n with
  | nil => simp [inTurn]
  | cons entry rest ih =>
      obtain ⟨place, job⟩ := entry
      cases n with
      | zero => cases stopped <;> simp [inTurn, stopsBehind_nil]
      | succ n => cases stopped <;> simp [inTurn, stopsBehind_cons, ih]

theorem stopsBehind_of_mem_startsInTurn {w : World} {stopped : Bool}
    {entries : List (Nat × PlannedJob)} {place : Nat}
    (member : place ∈ startsInTurn w stopped entries) :
    ∃ n entry, entries[n]? = some entry ∧ entry.1 = place ∧
      stopsBehind w stopped (entries.take n) = false := by
  induction entries generalizing stopped with
  | nil => simp [startsInTurn] at member
  | cons entry rest ih =>
      cases stopped with
      | true =>
          rw [startsInTurn_true] at member
          cases member
      | false =>
          rcases List.mem_cons.mp member with rfl | later
          · exact ⟨0, entry, rfl, rfl, rfl⟩
          · obtain ⟨n, found, present, same, unstopped⟩ := ih later
            refine ⟨n + 1, found, present, same, ?_⟩
            rwa [List.take_succ_cons, stopsBehind_cons, Bool.false_or]

/-! ## The queue of a run -/

def Stage.outcome? : Stage → Option (Nat × JobOutcome)
  | turning _ | acting .. | closing _ => none
  | reported place outcome => some (place, outcome)

/-- What a board says about the order of a run. -/
structure Queue where
  waiting : List (Nat × PlannedJob)
  active : Multiset Nat
  outcomes : Multiset (Nat × JobOutcome)
  started : List Nat
  aborted : Bool

namespace Queue

/-- What changes the queue of a fail-fast run that nobody cancels from outside. -/
inductive Shift (w : World) (jobAt : Nat → Option PlannedJob) : Queue → Queue → Prop
  | refuse {q : Queue} {place : Nat} {job : PlannedJob} (aborted : q.aborted = true) :
      Shift w jobAt { q with waiting := (place, job) :: q.waiting }
        { q with outcomes := (place, job.cancelled) ::ₘ q.outcomes }
  | start {q : Queue} {place : Nat} {job : PlannedJob} (aborted : q.aborted = false)
      (found : jobAt place = some job) :
      Shift w jobAt { q with waiting := (place, job) :: q.waiting }
        { q with active := place ::ₘ q.active, started := q.started ++ [place] }
  /-- A job that nothing has cancelled so far ends as it does alone. -/
  | report {q : Queue} {place : Nat} {job : PlannedJob} {o : JobOutcome}
      (found : jobAt place = some job) (alone : q.aborted = false → o = w.alone place job) :
      Shift w jobAt { q with active := place ::ₘ q.active }
        { q with
          outcomes := (place, o) ::ₘ q.outcomes
          aborted := q.aborted || o.status = .failed }

/-- With the jobs in the queue taken in turn, these are the outcomes of a run and
    the jobs that it starts. -/
inductive Foretells (w : World) (jobAt : Nat → Option PlannedJob)
    (outcomes : Multiset (Nat × JobOutcome)) (started : List Nat) (q : Queue) : Prop
  /-- No job is under way. -/
  | between (idle : q.active = 0)
      (ends : q.outcomes + ↑(inTurn w q.aborted q.waiting) = outcomes)
      (starts : q.started ++ startsInTurn w q.aborted q.waiting = started)
  /-- One job is under way, and nothing has cancelled it. -/
  | during {place : Nat} {job : PlannedJob} (busy : q.active = {place})
      (found : jobAt place = some job) (unaborted : q.aborted = false)
      (ends : q.outcomes + ((place, w.alone place job) ::ₘ
        ↑(inTurn w (w.fails place job) q.waiting)) = outcomes)
      (starts : q.started ++ startsInTurn w (w.fails place job) q.waiting = started)

/-- A change that leaves at most one job under way foretells what was foretold
    before it. -/
theorem Foretells.shift {w : World} {jobAt : Nat → Option PlannedJob}
    {outcomes : Multiset (Nat × JobOutcome)} {started : List Nat} {q q' : Queue}
    (h : q.Foretells w jobAt outcomes started) (shift : Shift w jobAt q q')
    (single : q'.active.card ≤ 1) : q'.Foretells w jobAt outcomes started := by
  cases shift with
  | @refuse q place job aborted =>
      cases h with
      | between idle ends starts =>
          simp only [aborted, inTurn, ← Multiset.cons_coe, Multiset.add_cons] at ends
          simp only [aborted, startsInTurn_true] at starts
          refine .between idle ?_ ?_
          · rw [aborted, Multiset.cons_add, ends]
          · rw [aborted, startsInTurn_true, starts]
      | during busy found unaborted => cases aborted.symm.trans unaborted
  | @start q place job aborted found =>
      cases h with
      | between idle ends starts =>
          simp only [aborted, inTurn, ← Multiset.cons_coe] at ends
          simp only [aborted, startsInTurn] at starts
          refine .during ?_ found aborted ends ?_
          · rw [show q.active = 0 from idle]
            rfl
          · rw [List.append_assoc, List.singleton_append, starts]
      | during busy =>
          -- A second job would be under way.
          rw [show q.active = _ from busy] at single
          simp at single
  | @report q place job o found alone =>
      cases h with
      | between idle => cases Multiset.cons_ne_zero idle
      | @during place' job' busy found' unaborted ends starts =>
          obtain ⟨rfl, idle⟩ := (Multiset.singleton_eq_cons_iff _).mp (Eq.symm busy)
          obtain rfl := Option.some.inj (found'.symm.trans found)
          have stops : (q.aborted || decide (o.status = .failed)) = w.fails place' job' := by
            rw [show q.aborted = false from unaborted, Bool.false_or, alone unaborted]
            rfl
          refine .between idle ?_ ?_
          · rw [stops, alone unaborted, Multiset.cons_add, ← Multiset.add_cons, ends]
          · rw [stops, starts]

end Queue

namespace Board

def queue (b : Board) : Queue :=
  ⟨b.waiting, b.active, b.stages.filterMap Stage.outcome?, startedPlaces b.log, b.aborted⟩

theorem queue_finish (b : Board) (t place : Nat) (job : PlannedJob) (o : JobOutcome) :
    ((b.put (.reported place o)).record t place (.jobFinish job o)).queue =
      { b.queue with outcomes := (place, o) ::ₘ b.queue.outcomes } := by
  simp [queue, active, put, record, startedPlaces, Event.started?, Stage.active?, Stage.outcome?,
    Multiset.filterMap_cons]

section Steps

variable {w : World} {jobAt : Nat → Option PlannedJob} {c : Cancellation} {b b' : Board}

theorem shift_of_step (told : b.Told w jobAt) (undisturbed : Undisturbed w c b'.log)
    (step : Step w true false b b') :
    b'.queue = b.queue ∨ Queue.Shift w jobAt b.queue b'.queue := by
  cases step with
  | @refuse b place job t aborted =>
      rw [queue_finish]
      exact .inr (.refuse (q := b.queue) aborted)
  | @start b place job t aborted =>
      have started : ((b.put (.turning ⟨place, job, JobState.start job, job.steps⟩)).record t place
          (.jobStart job)).queue = { b.queue with
            active := place ::ₘ b.queue.active
            started := b.queue.started ++ [place] } := by
        simp [queue, active, put, record, startedPlaces, Event.started?, Stage.active?,
          Stage.outcome?, Multiset.filterMap_cons]
      rw [started]
      exact .inr (.start (q := b.queue) aborted told.of_wait.2.2.1)
  | settle | begin | ended | complete | close =>
      left
      simp [queue, active, put, record, startedPlaces, Event.started?, Stage.active?,
        Stage.outcome?, Multiset.filterMap_cons]
  | @report b r t =>
      obtain ⟨-, -, job, found, story⟩ := told.of_put
      obtain ⟨-, rfl⟩ := story.isOf
      have closing : (b.put (.closing r)).queue =
          { b.queue with active := r.place ::ₘ b.queue.active } := by
        simp [queue, active, put, Stage.active?, Stage.outcome?, Multiset.filterMap_cons]
      have reported (flag : Bool) : (((b.put (.reported r.place (r.state.outcome r.job))).record t
          r.place (.jobFinish r.job (r.state.outcome r.job))).raise flag).queue =
          { b.queue with
            outcomes := (r.place, r.state.outcome r.job) ::ₘ b.queue.outcomes
            aborted := b.queue.aborted || flag } :=
        congrArg (fun q : Queue => { q with aborted := q.aborted || flag })
          (queue_finish b t r.place r.job (r.state.outcome r.job))
      right
      rw [closing, reported]
      refine .report (q := b.queue) found fun unaborted => ?_
      have unaborted : b.aborted = false := unaborted
      rw [unaborted] at story
      exact (Story.reported story).along_of_unaborted.outcome
  | @abort b t =>
      left
      simp [queue, active, record, raise, startedPlaces, Event.started?,
        Undisturbed.deaf undisturbed]
  | balk fails | lose fails => cases fails

end Steps

end Board

namespace Pool

section Runs

variable {w : World} {jobs : List PlannedJob} {limit : Option Number} {failFast : Bool}
  {c : Cancellation} {p : Pool} (quiet : w.observer = none)
  (reached : Reaches w (start w jobs limit failFast c) p)
include quiet reached

/-- At every step of a run the jobs under way keep to the limit. -/
theorem card_active_le {b : Board}
    (steps : Board.Steps w failFast false (start w jobs limit failFast c).board b)
    (first : b.log <+: p.log) : b.active.card ≤ bound limit jobs.length := by
  obtain ⟨q, earlier, same⟩ := inFlight_of_prefix rfl reached first
  rw [← inFlight_eq_active steps, Multiset.coe_card, same]
  exact inFlight_le earlier (failure_of_reaches quiet earlier)

end Runs

theorem getElem?_waiting_start (w : World) (jobs : List PlannedJob) (limit : Option Number)
    (failFast : Bool) (c : Cancellation) (i : Nat) :
    (start w jobs limit failFast c).waiting[i]? = jobs[i]?.map fun job => (i, job) := by
  simp [start, ofJobs, List.getElem?_map, List.getElem?_zipIdx, Function.comp_def]

theorem foretells_start (w : World) (jobs : List PlannedJob) (limit : Option Number)
    (failFast : Bool) (c : Cancellation)
    (unaborted : (start w jobs limit failFast c).board.aborted = false) :
    (start w jobs limit failFast c).board.queue.Foretells w (fun i => jobs[i]?)
      ↑(inTurn w false (start w jobs limit failFast c).waiting)
      (startsInTurn w false (start w jobs limit failFast c).waiting) := by
  have stages : (start w jobs limit failFast c).board.stages = 0 :=
    stages_start w jobs limit failFast c
  refine .between ?_ ?_ ?_
  · rw [Board.queue, Board.active, stages]
    rfl
  · rw [Board.queue, stages, unaborted]
    exact zero_add _
  · rw [Board.queue, unaborted]
    rfl

section OneAtATime

variable {w : World} {jobs : List PlannedJob} {limit : Option Number} {c : Cancellation} {p : Pool}
  (quiet : w.observer = none) (reached : Reaches w (start w jobs limit true c) p)
  (one : bound limit jobs.length ≤ 1) (undisturbed : Undisturbed w c p.log)
include quiet reached one undisturbed

theorem foretells_of_steps {b : Board}
    (steps : Board.Steps w true false (start w jobs limit true c).board b)
    (first : b.log <+: p.log) : b.queue.Foretells w (fun i => jobs[i]?)
      ↑(inTurn w false (start w jobs limit true c).waiting)
      (startsInTurn w false (start w jobs limit true c).waiting) := by
  induction steps with
  | refl => exact foretells_start w jobs limit true c (unaborted_at_start undisturbed)
  | tail before step ih =>
      have before' := ih ((Board.log_step step).trans first)
      have single := (card_active_le quiet reached (before.tail step) first).trans one
      rcases Board.shift_of_step ((told_start w jobs limit true c).steps before)
        (undisturbed.of_prefix first) step with same | shift
      · rw [same]
        exact before'
      · exact before'.shift shift single

variable (ended : p.IsOver)
include ended

/-- When a run is over, all that was foretold has come. -/
theorem outcomes_of_isOver :
    p.board.queue.outcomes = ↑(inTurn w false (start w jobs limit true c).waiting) ∧
      startedPlaces p.log = startsInTurn w false (start w jobs limit true c).waiting := by
  have ok := failure_of_reaches quiet reached
  have waiting : p.board.queue.waiting = [] := waiting_of_isOver reached ended ok
  cases foretells_of_steps quiet reached one undisturbed (lossless_of_start reached ok)
    List.prefix_rfl with
  | between idle ends starts =>
      simp only [waiting, inTurn, startsInTurn, Multiset.coe_nil, add_zero, List.append_nil]
        at ends starts
      exact ⟨ends, starts⟩
  | during busy =>
      have none : p.board.active.card = 0 :=
        ((card_active p).2 ended.1).trans (busy_of_isOver ended)
      have some : p.board.active = _ := busy
      simp [some] at none

theorem outcomeAt?_of_mem_inTurn {i : Nat} {o : JobOutcome}
    (member : (i, o) ∈ inTurn w false (start w jobs limit true c).waiting) :
    p.outcomeAt? i = some o := by
  have ok := failure_of_reaches quiet reached
  have come := (outcomes_of_isOver quiet reached one undisturbed ended).1
  rw [← Multiset.mem_coe, ← come] at member
  obtain ⟨x, present, shown⟩ := (Multiset.mem_filterMap Stage.outcome? p.stages).mp member
  cases x with
  | turning | acting | closing => cases shown
  | reported place o' =>
      cases shown
      exact outcomeAt?_of_reported ended (told_of_start reached).distinct present

theorem happenings_of_stopped {i : Nat} {job : PlannedJob} (found : jobs[i]? = some job)
    (stopped : stopsBehind w false ((start w jobs limit true c).waiting.take i) = true) :
    happenings p.log i = [.jobFinish job job.cancelled] := by
  have ok := failure_of_reaches quiet reached
  obtain ⟨o, -, story⟩ := story_of_isOver reached ok ended found
  rcases story.refused_or_started with ⟨-, refused, -⟩ | ⟨rest, started⟩
  · exact refused
  · have starts : i ∈ startedPlaces p.log := by
      apply mem_startedPlaces
      rw [started]
      exact List.mem_cons_self
    rw [(outcomes_of_isOver quiet reached one undisturbed ended).2] at starts
    obtain ⟨n, entry, present, same, unstopped⟩ := stopsBehind_of_mem_startsInTurn starts
    -- The entry of the queue at a place is the job at that place.
    rw [getElem?_waiting_start] at present
    obtain ⟨_, -, rfl⟩ := Option.map_eq_some_iff.mp present
    subst same
    cases stopped.symm.trans unstopped

end OneAtATime

end Pool

/-- Whether one of the jobs before a place fails alone. -/
theorem stopsBehind_take_start {w : World} {jobs : List PlannedJob} {limit : Option Number}
    {failFast : Bool} {c : Cancellation} {i : Nat} :
    stopsBehind w false ((Pool.start w jobs limit failFast c).waiting.take i) = true ↔
      ∃ j earlier, j < i ∧ jobs[j]? = some earlier ∧ (w.alone j earlier).status = .failed := by
  simp only [stopsBehind, Bool.false_or, List.any_eq_true, List.mem_iff_getElem?,
    List.getElem?_take, World.fails, decide_eq_true_eq]
  constructor
  · rintro ⟨entry, ⟨j, present⟩, failed⟩
    split at present
    · next before =>
        rw [Pool.getElem?_waiting_start] at present
        obtain ⟨earlier, found, rfl⟩ := Option.map_eq_some_iff.mp present
        exact ⟨j, earlier, before, found, failed⟩
    · cases present
  · rintro ⟨j, earlier, before, found, failed⟩
    refine ⟨(j, earlier), ⟨j, ?_⟩, failed⟩
    rw [if_pos before, Pool.getElem?_waiting_start, found]
    rfl

/-- **One job at a time.**  Take a run with a limit of one that is fail-fast and
    that no observer disturbs.  Whatever the order of the moves, if nobody cancels
    it from outside, every job has the outcome that it has alone, without a
    signal, up to and with the first one that fails so; and every job behind that
    one is refused, and nothing else happens to it. -/
theorem runs_up_to_first_failure {w : World} (quiet : w.observer = none) (jobs : List PlannedJob)
    (c : Cancellation) :
    (∃ report, runJobs w jobs (some 1) true c = .ok report) ∧
    (∀ report, runJobs w jobs (some 1) true c = .ok report →
      Reports w jobs (some 1) true c report) ∧
    ∀ report, Reports w jobs (some 1) true c report → Undisturbed w c report.log →
      report.result.length = jobs.length ∧ ∀ i job, jobs[i]? = some job →
        (∃ log, runJob w.deaf i job .never = .ok ⟨log, some (w.alone i job)⟩) ∧
        ((∀ j earlier, j < i → jobs[j]? = some earlier →
            (w.alone j earlier).status ≠ .failed) →
          report.result[i]? = some (w.alone i job)) ∧
        ((∃ j earlier, j < i ∧ jobs[j]? = some earlier ∧
            (w.alone j earlier).status = .failed) →
          report.result[i]? = some job.cancelled ∧
            happenings report.log i = [.jobFinish job job.cancelled]) := by
  refine ⟨runJobs_eq_ok quiet, fun report => reports_of_runJobs, ?_⟩
  rintro _ ⟨p, reached, ended, ok, rfl⟩ undisturbed
  refine ⟨Pool.length_outcomesInOrder reached ok ended, fun i job found => ?_⟩
  have one : Pool.bound (some 1) jobs.length ≤ 1 := by
    have : (some 1 : Option Number).bind Number.toNat? = some 1 := by decide +kernel
    simp [Pool.bound, this]
  have waits := (Pool.getElem?_waiting_start w jobs (some 1) true c i).trans
    (congrArg _ found)
  have reports {o : JobOutcome}
      (turn : (inTurn w false (Pool.start w jobs (some 1) true c).waiting)[i]? = some (i, o)) :
      (p.outcomesInOrder jobs.length)[i]? = some o := by
    rw [Pool.getElem?_outcomesInOrder reached ok ended found]
    exact Pool.outcomeAt?_of_mem_inTurn quiet reached one undisturbed ended
      (List.mem_of_getElem? turn)
  refine ⟨runJob_deaf w i job .never, fun clear => reports ?_, fun failed => ?_⟩
  · have unstopped : stopsBehind w false
        ((Pool.start w jobs (some 1) true c).waiting.take i) = false := by
      rw [Bool.eq_false_iff, ne_eq, stopsBehind_take_start]
      rintro ⟨j, earlier, before, present, fails⟩
      exact clear j earlier before present fails
    rw [getElem?_inTurn, waits, unstopped]
    rfl
  · have stopped : stopsBehind w false
        ((Pool.start w jobs (some 1) true c).waiting.take i) = true :=
      stopsBehind_take_start.mpr failed
    refine ⟨reports ?_, Pool.happenings_of_stopped quiet reached one undisturbed ended found stopped⟩
    rw [getElem?_inTurn, waits, stopped]
    rfl

theorem runs_up_to_first_failure_second :
    let w : World := { World.dry false none with
      behaviour := fun r _ => ⟨some 3, .completed ⟨r.place != 1, none⟩, false, []⟩ }
    let jobs := [oneStep 0, oneStep 1, oneStep 2]
    w.observer = none ∧ ∃ report, runJobs w jobs (some 1) true .never = .ok report ∧
      Undisturbed w .never report.log ∧
      report.result.map (·.status) = [.succeeded, .failed, .cancelled] ∧
      happenings report.log 2 = [.jobFinish (oneStep 2) (oneStep 2).cancelled] := by
  intro w jobs
  obtain ⟨⟨report, ran⟩, reports, law⟩ := runs_up_to_first_failure (w := w) rfl jobs .never
  have undisturbed : Undisturbed w .never report.log := nofun
  obtain ⟨length, each⟩ := law report (reports report ran) undisturbed
  have first := (each 0 (oneStep 0) rfl).2.1 nofun
  have second := (each 1 (oneStep 1) rfl).2.1 (by
    intro j earlier before found
    obtain rfl : j = 0 := by omega
    cases found
    decide +kernel)
  obtain ⟨third, refused⟩ := (each 2 (oneStep 2) rfl).2.2
    ⟨1, oneStep 1, by decide, rfl, by decide +kernel⟩
  refine ⟨rfl, report, ran, undisturbed, ?_, refused⟩
  obtain ⟨a, b, d, all⟩ := List.length_eq_three.mp length
  simp only [all, List.getElem?_cons_zero, List.getElem?_cons_succ, Option.some.injEq]
    at first second third
  rw [all, first, second, third]
  decide +kernel

end JobMatrix.Run
