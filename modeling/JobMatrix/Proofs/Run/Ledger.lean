import JobMatrix.Proofs.Run.Completion

/-! # Who is under way

The board and the log of a run keep the same books: which jobs wait, which have
started, and which have finished.  Jobs start in the order of the list, and the
ones under way are held by the workers, so at every moment they keep to the
limit.
-/

namespace JobMatrix.Run

def Event.started? (e : Event) : Option Nat :=
  match e.what with
  | .jobStart _ => e.place
  | _ => none

def Event.finished? (e : Event) : Option Nat :=
  match e.what with
  | .jobFinish .. => e.place
  | _ => none

def startedPlaces (log : List Event) : List Nat :=
  log.filterMap Event.started?

def finishedPlaces (log : List Event) : List Nat :=
  log.filterMap Event.finished?

/-- The places of the jobs that have started and not finished. -/
def inFlight (log : List Event) : List Nat :=
  (startedPlaces log).filter (· ∉ finishedPlaces log)

theorem mem_startedPlaces {log : List Event} {i : Nat} {job : PlannedJob}
    (h : .jobStart job ∈ happenings log i) : i ∈ startedPlaces log := by
  obtain ⟨e, member, shown⟩ := List.mem_filterMap.mp h
  split at shown
  · next place =>
      refine List.mem_filterMap.mpr ⟨e, member, ?_⟩
      rw [Event.started?, Option.some.inj shown]
      exact place
  · cases shown

def Stage.active? : Stage → Option Nat
  | turning r | acting r _ _ | closing r => some r.place
  | reported .. => none

def Stage.reported? : Stage → Option Nat
  | turning _ | acting .. | closing _ => none
  | reported place _ => some place

/-- What a board and its log say about the places of a run. -/
structure Ledger where
  waiting : List Nat
  started : List Nat
  finished : List Nat
  active : Multiset Nat
  reported : Multiset Nat

namespace Ledger

/-- What a run writes into its ledger. -/
inductive Entry : Ledger → Ledger → Prop
  | refuse {l : Ledger} {i : Nat} :
      Entry { l with waiting := i :: l.waiting }
        { l with finished := l.finished ++ [i], reported := i ::ₘ l.reported }
  | start {l : Ledger} {i : Nat} :
      Entry { l with waiting := i :: l.waiting }
        { l with started := l.started ++ [i], active := i ::ₘ l.active }
  | finish {l : Ledger} {i : Nat} :
      Entry { l with active := i ::ₘ l.active }
        { l with finished := l.finished ++ [i], reported := i ::ₘ l.reported }

/-- The log agrees with the stages, and jobs start in order. -/
structure Sound (l : Ledger) : Prop where
  finished : (l.finished : Multiset Nat) = l.reported
  active : ∀ i ∈ l.active, i ∈ l.started
  started : ∀ i ∈ l.started, i ∈ l.active + l.reported
  order : (l.started ++ l.waiting).Pairwise (· < ·)

theorem Sound.entry {l l' : Ledger} (h : l.Sound) (entry : Entry l l') : l'.Sound := by
  cases entry with
  | @refuse l i =>
      refine ⟨?_, h.active, fun j member => ?_, ?_⟩
      · rw [← h.finished, ← Multiset.coe_add, Multiset.coe_singleton, add_comm]
        rfl
      · rw [Multiset.add_cons]
        exact Multiset.mem_cons_of_mem (h.started j member)
      · exact h.order.sublist ((List.sublist_cons_self i l.waiting).append_left l.started)
  | @start l i =>
      refine ⟨h.finished, fun j member => ?_, fun j member => ?_, ?_⟩
      · rcases Multiset.mem_cons.mp member with rfl | member
        · exact List.mem_append_right _ List.mem_cons_self
        · exact List.mem_append_left _ (h.active j member)
      · rw [Multiset.cons_add, Multiset.mem_cons]
        rcases List.mem_append.mp member with before | now
        · exact .inr (h.started j before)
        · exact .inl (List.mem_singleton.mp now)
      · rw [List.append_assoc]
        exact h.order
  | @finish l i =>
      refine ⟨?_, fun j member => h.active j (Multiset.mem_cons_of_mem member), fun j member => ?_,
        h.order⟩
      · rw [← h.finished, ← Multiset.coe_add, Multiset.coe_singleton, add_comm]
        rfl
      · rw [Multiset.add_cons, ← Multiset.cons_add]
        exact h.started j member

/-- The jobs in flight are those that are neither waiting nor over. -/
theorem Sound.inFlight {l : Ledger} (h : l.Sound) (distinct : (l.active + l.reported).Nodup) :
    (↑(l.started.filter (· ∉ l.finished)) : Multiset Nat) = l.active := by
  have starts : l.started.Nodup := (h.order.sublist (List.sublist_append_left _ _)).imp Nat.ne_of_lt
  obtain ⟨active, -, apart⟩ := Multiset.nodup_add.mp distinct
  refine (Multiset.Nodup.ext (Multiset.coe_nodup.mpr (starts.filter _)) active).mpr fun i => ?_
  rw [Multiset.mem_coe, List.mem_filter, decide_eq_true_eq]
  constructor
  · rintro ⟨started, unfinished⟩
    have place := Multiset.mem_add.mp (h.started i started)
    rw [← h.finished, Multiset.mem_coe] at place
    exact place.resolve_right unfinished
  · intro flying
    have unfinished := Multiset.disjoint_left.mp apart flying
    rw [← h.finished, Multiset.mem_coe] at unfinished
    exact ⟨h.active i flying, unfinished⟩

end Ledger

namespace Board

def active (b : Board) : Multiset Nat :=
  b.stages.filterMap Stage.active?

def reported (b : Board) : Multiset Nat :=
  b.stages.filterMap Stage.reported?

def ledger (b : Board) : Ledger :=
  ⟨b.waiting.map Prod.fst, startedPlaces b.log, finishedPlaces b.log, b.active, b.reported⟩

theorem places_eq (b : Board) : b.places = ↑(b.waiting.map Prod.fst) + (b.active + b.reported) := by
  rw [places, active, reported]
  congr 1
  induction b.stages using Multiset.induction_on with
  | empty => rfl
  | cons x m ih =>
      cases x <;>
        simp [Stage.place, Stage.active?, Stage.reported?, Multiset.filterMap_cons, ih]

theorem ledger_finish (b : Board) (t place : Nat) (job : PlannedJob) (o : JobOutcome) :
    ((b.put (.reported place o)).record t place (.jobFinish job o)).ledger =
      { b.ledger with
        finished := finishedPlaces b.log ++ [place]
        reported := place ::ₘ b.reported } := by
  simp [ledger, active, reported, put, record, startedPlaces, finishedPlaces, Event.started?,
    Event.finished?, Stage.active?, Stage.reported?, Multiset.filterMap_cons]

theorem ledger_step {w : World} {failFast : Bool} {b b' : Board}
    (step : Step w failFast false b b') :
    b'.ledger = b.ledger ∨ Ledger.Entry b.ledger b'.ledger := by
  cases step with
  | @refuse b place job t =>
      rw [ledger_finish]
      exact .inr (Ledger.Entry.refuse (l := b.ledger))
  | @start b place job t =>
      have started : ((b.put (.turning ⟨place, job, JobState.start job, job.steps⟩)).record t place
          (.jobStart job)).ledger = { b.ledger with
            started := startedPlaces b.log ++ [place]
            active := place ::ₘ b.active } := by
        simp [ledger, active, reported, put, record, startedPlaces, finishedPlaces, Event.started?,
          Event.finished?, Stage.active?, Stage.reported?, Multiset.filterMap_cons]
      rw [started]
      exact .inr (Ledger.Entry.start (l := b.ledger))
  | settle | begin | ended | complete | close | abort =>
      left
      simp [ledger, active, reported, put, record, raise, startedPlaces, finishedPlaces,
        Event.started?, Event.finished?, Stage.active?, Stage.reported?, Multiset.filterMap_cons]
  | @report b r t =>
      have active : (b.put (.closing r)).ledger =
          { b.ledger with active := r.place ::ₘ b.active } := by
        simp [ledger, active, reported, put, Stage.active?, Stage.reported?,
          Multiset.filterMap_cons]
      have finished := ledger_finish b t r.place r.job (r.state.outcome r.job)
      right
      change Ledger.Entry _ ((b.put (.reported r.place (r.state.outcome r.job))).record t r.place
        (.jobFinish r.job (r.state.outcome r.job))).ledger
      rw [active, finished]
      exact Ledger.Entry.finish (l := b.ledger)
  | balk fails | lose fails => cases fails

theorem sound_steps {w : World} {failFast : Bool} {b b' : Board} (h : b.ledger.Sound)
    (steps : Steps w failFast false b b') : b'.ledger.Sound := by
  induction steps with
  | refl => exact h
  | tail _ step ih =>
      rcases ledger_step step with same | entry
      · rw [same]
        exact ih
      · exact ih.entry entry

end Board

namespace Pool

/-- The limit on jobs in flight: the given one if it is a positive whole number,
    and otherwise the number of jobs. -/
def bound (limit : Option Number) (jobs : Nat) : Nat :=
  match limit.bind Number.toNat? with
  | some (n + 1) => n + 1
  | _ => jobs

theorem workers_eq (limit : Option Number) (jobs : Nat) :
    workers limit jobs = max 1 (min (bound limit jobs) jobs) := by
  unfold workers bound
  rcases limit.bind Number.toNat? with _ | _ | n
  · rw [Nat.min_self]
  · rw [Nat.min_self]
  · rfl

theorem bound_pos (limit : Option Number) {jobs : Nat} (some : 0 < jobs) :
    0 < bound limit jobs := by
  unfold bound
  split
  · exact Nat.succ_pos _
  · exact some

theorem length_active_ready (ready : List Task) :
    ((ready.flatMap Task.stages).filterMap Stage.active?).length ≤ ready.length := by
  induction ready with
  | nil => exact Nat.le_refl 0
  | cons t ready ih =>
      rw [List.flatMap_cons, List.filterMap_append, List.length_append, List.length_cons]
      have one : ((Task.stages t).filterMap Stage.active?).length ≤ 1 := by
        cases t <;> simp [Task.stages, Stage.active?]
      omega

theorem length_active_timers (timers : List Timer) :
    ((timers.flatMap fun t => t.alarm.stages).filterMap Stage.active?).length =
      timers.countP fun t => t.alarm.endsAction := by
  induction timers with
  | nil => rfl
  | cons t timers ih =>
      rw [List.flatMap_cons, List.filterMap_append, List.length_append, List.countP_cons, ih,
        Nat.add_comm]
      cases t.alarm <;> rfl

/-- A job under way has a worker, and a worker that waits has a job. -/
theorem card_active (p : Pool) :
    p.board.active.card ≤ p.busy ∧ (p.ready = [] → p.board.active.card = p.busy) := by
  have none : (p.outcomes.map fun entry => Stage.reported entry.1 entry.2).filterMap Stage.active? =
      [] := by
    simp [Stage.active?]
  have count : p.board.active.card =
      ((p.ready.flatMap Task.stages).filterMap Stage.active?).length +
        p.timers.countP fun t => t.alarm.endsAction := by
    simp only [Board.active, board, stages, Multiset.filterMap_add, Multiset.filterMap_coe, none,
      Multiset.card_add, Multiset.coe_card, length_active_timers, List.length_nil, Nat.add_zero]
  rw [count, busy]
  refine ⟨Nat.add_le_add_right (length_active_ready p.ready) _, fun idle => ?_⟩
  rw [idle]
  rfl

/-! ## Every moment

A move may log several things, but the start or the finish of a job is logged
by a move of its own.  So a log that breaks off anywhere tells of the jobs what
the log of some state of the run tells. -/

theorem inFlight_append {log more : List Event} (steps : ∀ e ∈ more, e.what.isOfSteps = true) :
    inFlight (log ++ more) = inFlight log := by
  have none (e : Event) (member : e ∈ more) : e.started? = none ∧ e.finished? = none := by
    have of := steps e member
    unfold Event.started? Event.finished?
    cases what : e.what with
    | jobStart | jobFinish => simp only [what, Happening.isOfSteps, Bool.false_eq_true] at of
    | _ => exact ⟨rfl, rfl⟩
  have started : more.filterMap Event.started? = [] :=
    List.filterMap_eq_nil_iff.mpr fun e member => (none e member).1
  have finished : more.filterMap Event.finished? = [] :=
    List.filterMap_eq_nil_iff.mpr fun e member => (none e member).2
  have starts : startedPlaces (log ++ more) = startedPlaces log := by
    rw [startedPlaces, List.filterMap_append, started, List.append_nil, startedPlaces]
  have finishes : finishedPlaces (log ++ more) = finishedPlaces log := by
    rw [finishedPlaces, List.filterMap_append, finished, List.append_nil, finishedPlaces]
  rw [inFlight, starts, finishes, inFlight]

/-- Wherever the log of a run breaks off, the jobs in flight are those of a state
    of the run. -/
theorem inFlight_of_prefix {w : World} {p q : Pool} (silent : p.log = []) (h : Reaches w p q)
    {before : List Event} (first : before <+: q.log) :
    ∃ q', Reaches w p q' ∧ inFlight before = inFlight q'.log := by
  induction h with
  | refl =>
      rw [silent, List.prefix_nil] at first
      exact ⟨p, .refl, by rw [first, silent]⟩
  | @tail q q' moves move ih =>
      rcases log_of_move move with ⟨more, same, steps⟩ | ⟨e, same⟩
      -- A break among the steps of a move leaves the jobs as before the move.
      · rw [same] at first
        rcases List.prefix_or_prefix_of_prefix first (List.prefix_append q.log more) with
          earlier | ⟨some, rfl⟩
        · exact ih earlier
        · have part := (List.prefix_append_right_inj q.log).mp first
          exact ⟨q, moves, inFlight_append fun e member => steps e (part.subset member)⟩
      · rw [same, List.prefix_concat_iff] at first
        rcases first with all | earlier
        · exact ⟨q', moves.tail move, by rw [all, same]⟩
        · exact ih earlier

theorem sound_start (w : World) (jobs : List PlannedJob) (limit : Option Number)
    (failFast : Bool) (c : Cancellation) : (start w jobs limit failFast c).board.ledger.Sound := by
  have stages : (start w jobs limit failFast c).board.stages = 0 :=
    stages_start w jobs limit failFast c
  have active : (start w jobs limit failFast c).board.active = 0 := by
    rw [Board.active, stages]
    rfl
  refine ⟨?_, fun i member => ?_, nofun, ?_⟩
  · rw [Board.ledger, Board.reported, stages]
    rfl
  · rw [Board.ledger, active] at member
    exact absurd member (Multiset.notMem_zero i)
  · have order : (List.range jobs.length).Pairwise (· < ·) := List.pairwise_lt_range
    rw [← waiting_start w jobs limit failFast c] at order
    exact order

/-- The log tells which jobs are under way, at every step of a run. -/
theorem inFlight_eq_active {w : World} {jobs : List PlannedJob} {limit : Option Number}
    {failFast : Bool} {c : Cancellation} {b : Board}
    (steps : Board.Steps w failFast false (start w jobs limit failFast c).board b) :
    (↑(inFlight b.log) : Multiset Nat) = b.active := by
  have distinct := ((told_start w jobs limit failFast c).steps steps).distinct
  rw [Board.places_eq] at distinct
  exact (Board.sound_steps (sound_start w jobs limit failFast c) steps).inFlight
    (Multiset.nodup_add.mp distinct).2.1

section Runs

variable {w : World} {jobs : List PlannedJob} {limit : Option Number} {failFast : Bool}
  {c : Cancellation} {p : Pool} (reached : Reaches w (start w jobs limit failFast c) p)
  (ok : p.failure = none)
include reached ok

theorem sound_of_start : p.board.ledger.Sound :=
  Board.sound_steps (sound_start w jobs limit failFast c) (lossless_of_start reached ok)

theorem inFlight_eq : (↑(inFlight p.log) : Multiset Nat) = p.board.active :=
  inFlight_eq_active (lossless_of_start reached ok)

theorem length_inFlight : (inFlight p.log).length = p.board.active.card := by
  rw [← inFlight_eq reached ok, Multiset.coe_card]

theorem waiting_add_active_le : p.waiting.length + p.board.active.card ≤ jobs.length := by
  have all := congrArg Multiset.card (places_of_start reached ok)
  rw [Board.places_eq, Multiset.card_add, Multiset.card_add, Multiset.card_range,
    Multiset.coe_card, List.length_map] at all
  have waiting : p.board.waiting.length = p.waiting.length := rfl
  omega

theorem inFlight_le : (inFlight p.log).length ≤ bound limit jobs.length := by
  have inside := waiting_add_active_le reached ok
  have busy := (busy_of_reaches reached ok).1
  rw [busy_start, workers_eq] at busy
  have active := (card_active p).1
  rw [length_inFlight reached ok]
  rcases Nat.eq_zero_or_pos jobs.length with none | some
  · omega
  · have := bound_pos limit some
    omega

/-- A run in which no worker can go on has as many jobs under way as it may, if
    jobs wait. -/
theorem inFlight_eq_bound (idle : p.ready = []) (waits : p.waiting ≠ []) :
    (inFlight p.log).length = bound limit jobs.length := by
  have inside := waiting_add_active_le reached ok
  -- While jobs wait every worker is there, and with nothing ready each has a job.
  have busy := (busy_of_reaches reached ok).2 waits
  rw [busy_start, workers_eq] at busy
  have active := (card_active p).2 idle
  have := List.length_pos_iff.mpr waits
  have some : 0 < jobs.length := by omega
  have := bound_pos limit some
  rw [length_inFlight reached ok]
  omega

theorem waits_of_unstarted (unaborted : p.aborted = false) {i : Nat} (inside : i < jobs.length)
    (unstarted : i ∉ startedPlaces p.log) : p.waiting ≠ [] := by
  intro none
  have waiting : p.board.waiting = [] := none
  have member : i ∈ p.board.places := by
    rw [places_of_start reached ok, Multiset.mem_range]
    exact inside
  rw [Board.places, waiting, List.map_nil, Multiset.coe_nil, zero_add] at member
  obtain ⟨x, present, rfl⟩ := Multiset.mem_map.mp member
  obtain ⟨job, -, story⟩ := (told_of_start reached).stages x present
  rcases story.refused_or_started with ⟨aborted, -⟩ | ⟨rest, started⟩
  · exact Bool.false_ne_true (unaborted.symm.trans aborted)
  · apply unstarted
    have starts : happenings p.log x.place = .jobStart job :: rest := started
    apply mem_startedPlaces
    rw [starts]
    exact List.mem_cons_self

theorem finishedPlaces_perm (ended : p.IsOver) :
    (finishedPlaces p.log).Perm (List.range jobs.length) := by
  have waiting : p.board.waiting = [] := waiting_of_isOver reached ended ok
  have active : p.board.active = 0 := by
    rw [← Multiset.card_eq_zero, (card_active p).2 ended.1, busy_of_isOver ended]
  have all := places_of_start reached ok
  rw [Board.places_eq, waiting, active, zero_add, List.map_nil, Multiset.coe_nil, zero_add]
    at all
  exact Multiset.coe_eq_coe.mp ((sound_of_start reached ok).finished.trans all)

end Runs

end Pool

end JobMatrix.Run
