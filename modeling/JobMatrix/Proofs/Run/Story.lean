import JobMatrix.Proofs.Run.Board

/-! # The story of one job

A job of a run lives through its own story, whatever the others do: it is
refused or started, its steps take their turns, and its outcome is reported.
The others reach it only by cancelling the run, at any point of the story and
never back.  On the board of every run each stage stands with its story, and
the log of the run tells that story at the place of the job.
-/

namespace JobMatrix.Run

def happenings (log : List Event) (place : Nat) : List Happening :=
  log.filterMap fun e => if e.place = some place then some e.what else none

theorem happenings_snoc_self (log : List Event) (t place : Nat) (what : Happening) :
    happenings (log ++ [⟨t, some place, what⟩]) place = happenings log place ++ [what] := by
  simp [happenings]

theorem happenings_snoc_other {place : Nat} {e : Event} (log : List Event)
    (other : e.place ≠ some place) : happenings (log ++ [e]) place = happenings log place := by
  simp [happenings, other]

/-- The story of the job at a place: whether the run is cancelled by now, what
    has happened to the job, and what it is at. -/
inductive Story (w : World) (place : Nat) (job : PlannedJob) :
    Bool → List Happening → Stage → Prop
  | refused : Story w place job true [.jobFinish job job.cancelled] (.reported place job.cancelled)
  | started : Story w place job false [.jobStart job]
      (.turning ⟨place, job, JobState.start job, job.steps⟩)
  | settled {aborted : Bool} {told : List Happening} {r : Running} {step : PlannedStep}
      {rest : List PlannedStep} {s : JobState} {result : StepResult}
      (before : Story w place job aborted told (.turning r)) (next : r.rest = step :: rest)
      (turn : r.state.turn r.job aborted step = .settled s)
      (last : s.results.getLast? = some result) :
      Story w place job aborted (told ++ [.stepFinish r.job result])
        (.turning { r with state := s, rest })
  | begun {aborted : Bool} {told : List Happening} {r : Running} {step prepared : PlannedStep}
      {rest : List PlannedStep} {s : JobState}
      (before : Story w place job aborted told (.turning r)) (next : r.rest = step :: rest)
      (turn : r.state.turn r.job aborted step = .started s prepared) :
      Story w place job aborted
        (told ++ [.stepStart r.job prepared] ++ [.actionStart r.job prepared s.context])
        (.acting { r with state := s, rest } step
          (w.behaviour { r with state := s, rest } prepared))
  | ended {aborted : Bool} {told : List Happening} {r : Running} {step : PlannedStep}
      {how : Behaviour} (before : Story w place job aborted told (.acting r step how)) :
      Story w place job aborted (told ++ [.actionEnd r.job step how.output]) (.acting r step how)
  | completed {aborted : Bool} {told : List Happening} {r : Running} {step : PlannedStep}
      {how : Behaviour} {result : StepResult}
      (before : Story w place job aborted told (.acting r step how))
      (last : (r.state.complete step how.ending.result).results.getLast? = some result) :
      Story w place job aborted (told ++ [.stepFinish r.job result])
        (.turning { r with state := r.state.complete step how.ending.result })
  | closed {aborted : Bool} {told : List Happening} {r : Running}
      (before : Story w place job aborted told (.turning r)) (next : r.rest = []) :
      Story w place job aborted told (.closing r)
  | reported {aborted : Bool} {told : List Happening} {r : Running}
      (before : Story w place job aborted told (.closing r)) :
      Story w place job aborted (told ++ [.jobFinish r.job (r.state.outcome r.job)])
        (.reported r.place (r.state.outcome r.job))
  | raised {told : List Happening} {x : Stage} (before : Story w place job false told x) :
      Story w place job true told x

def Stage.IsOf (place : Nat) (job : PlannedJob) : Stage → Prop
  | turning r | acting r _ _ | closing r => r.place = place ∧ r.job = job
  | reported at' _ => at' = place

namespace Story

variable {w : World} {place : Nat} {job : PlannedJob} {aborted : Bool} {told : List Happening}
  {x : Stage}

theorem raise (h : Story w place job aborted told x) (flag : Bool) :
    Story w place job (aborted || flag) told x := by
  cases aborted with
  | true => exact h
  | false =>
      cases flag with
      | true => exact h.raised
      | false => exact h

theorem isOf (h : Story w place job aborted told x) : x.IsOf place job := by
  induction h with
  | refused => rfl
  | started => exact ⟨rfl, rfl⟩
  | settled _ _ _ _ ih | begun _ _ _ ih | ended _ ih | completed _ _ ih | closed _ _ ih
  | raised _ ih => exact ih
  | reported _ ih => exact ih.1

theorem refused_or_started (h : Story w place job aborted told x) :
    (aborted = true ∧ told = [.jobFinish job job.cancelled] ∧ x = .reported place job.cancelled) ∨
      ∃ rest, told = .jobStart job :: rest := by
  induction h with
  | refused => exact .inl ⟨rfl, rfl, rfl⟩
  | started => exact .inr ⟨[], rfl⟩
  | settled _ _ _ _ ih | begun _ _ _ ih | ended _ ih | completed _ _ ih | reported _ ih =>
      rcases ih with ⟨-, -, impossible⟩ | ⟨rest, rfl⟩
      · cases impossible
      · exact .inr ⟨_, rfl⟩
  | closed _ _ ih =>
      rcases ih with ⟨-, -, impossible⟩ | started
      · cases impossible
      · exact .inr started
  | raised _ ih =>
      rcases ih with ⟨impossible, -⟩ | started
      · cases impossible
      · exact .inr started

theorem told_ne_nil (h : Story w place job aborted told x) : told ≠ [] := by
  rcases h.refused_or_started with ⟨-, rfl, -⟩ | ⟨rest, rfl⟩ <;> exact List.cons_ne_nil _ _

end Story

namespace Board

def places (b : Board) : Multiset Nat :=
  ↑(b.waiting.map Prod.fst) + b.stages.map Stage.place

theorem places_put (b : Board) (x : Stage) : (b.put x).places = x.place ::ₘ b.places := by
  simp only [places, put, Multiset.map_cons, Multiset.add_cons]

theorem places_wait (b : Board) (place : Nat) (job : PlannedJob) :
    ({ b with waiting := (place, job) :: b.waiting } : Board).places = place ::ₘ b.places := by
  simp only [places, List.map_cons, ← Multiset.cons_coe, Multiset.cons_add]

theorem place_of_mem_stages {b : Board} {x : Stage} (h : x ∈ b.stages) : x.place ∈ b.places :=
  Multiset.mem_add.mpr (.inr (Multiset.mem_map_of_mem _ h))

theorem place_of_mem_waiting {b : Board} {entry : Nat × PlannedJob} (h : entry ∈ b.waiting) :
    entry.1 ∈ b.places :=
  Multiset.mem_add.mpr (.inl (Multiset.mem_coe.mpr (List.mem_map_of_mem h)))

/-- The log tells the story of every job on the board, and the jobs stand at
    places of their own. -/
structure Told (w : World) (jobAt : Nat → Option PlannedJob) (b : Board) : Prop where
  distinct : b.places.Nodup
  waiting : ∀ entry ∈ b.waiting, jobAt entry.1 = some entry.2 ∧ happenings b.log entry.1 = []
  stages : ∀ x ∈ b.stages, ∃ job, jobAt x.place = some job ∧
    Story w x.place job b.aborted (happenings b.log x.place) x

section Told

variable {w : World} {jobAt : Nat → Option PlannedJob} {b : Board}

theorem Told.of_put {x : Stage} (h : (b.put x).Told w jobAt) :
    b.Told w jobAt ∧ x.place ∉ b.places ∧ ∃ job, jobAt x.place = some job ∧
      Story w x.place job b.aborted (happenings b.log x.place) x := by
  have distinct := h.distinct
  rw [places_put, Multiset.nodup_cons] at distinct
  refine ⟨⟨distinct.2, h.waiting, fun y member => ?_⟩, distinct.1, ?_⟩
  · exact h.stages y (Multiset.mem_cons_of_mem member)
  · exact h.stages x (Multiset.mem_cons_self x _)

theorem Told.put (h : b.Told w jobAt) (x : Stage) {job : PlannedJob} (fresh : x.place ∉ b.places)
    (found : jobAt x.place = some job)
    (story : Story w x.place job b.aborted (happenings b.log x.place) x) :
    (b.put x).Told w jobAt := by
  refine ⟨?_, h.waiting, fun y member => ?_⟩
  · rw [places_put, Multiset.nodup_cons]
    exact ⟨fresh, h.distinct⟩
  · rcases Multiset.mem_cons.mp member with rfl | member
    · exact ⟨job, found, story⟩
    · exact h.stages y member

theorem Told.of_wait {place : Nat} {job : PlannedJob}
    (h : ({ b with waiting := (place, job) :: b.waiting } : Board).Told w jobAt) :
    b.Told w jobAt ∧ place ∉ b.places ∧ jobAt place = some job ∧ happenings b.log place = [] := by
  have distinct := h.distinct
  rw [places_wait, Multiset.nodup_cons] at distinct
  obtain ⟨found, silent⟩ := h.waiting (place, job) List.mem_cons_self
  refine ⟨⟨distinct.2, fun entry member => ?_, h.stages⟩, distinct.1, found, silent⟩
  exact h.waiting entry (List.mem_cons_of_mem _ member)

/-- What happens to no job on the board changes no story on it. -/
theorem Told.record (h : b.Told w jobAt) {place : Option Nat}
    (fresh : ∀ i, place = some i → i ∉ b.places) (t : Nat) (what : Happening) :
    (b.record t place what).Told w jobAt := by
  have other {i : Nat} (member : i ∈ b.places) : place ≠ some i := by
    intro same
    exact fresh i same member
  refine ⟨h.distinct, fun entry member => ?_, fun x member => ?_⟩
  · obtain ⟨found, silent⟩ := h.waiting entry member
    refine ⟨found, ?_⟩
    rw [← silent]
    exact happenings_snoc_other b.log (other (place_of_mem_waiting member))
  · obtain ⟨job, found, story⟩ := h.stages x member
    refine ⟨job, found, ?_⟩
    have same : happenings (b.record t place what).log x.place = happenings b.log x.place :=
      happenings_snoc_other b.log (other (place_of_mem_stages member))
    rw [same]
    exact story

theorem Told.record_own (h : b.Told w jobAt) {place : Nat} (fresh : place ∉ b.places) (t : Nat)
    (what : Happening) : (b.record t place what).Told w jobAt := by
  apply h.record
  rintro i ⟨⟩
  exact fresh

theorem Told.raise (h : b.Told w jobAt) (flag : Bool) : (b.raise flag).Told w jobAt := by
  refine ⟨h.distinct, h.waiting, fun x member => ?_⟩
  obtain ⟨job, found, story⟩ := h.stages x member
  exact ⟨job, found, story.raise flag⟩

/-- One thing happens to the job of one stage, which goes on to another. -/
theorem Told.change {x : Stage} (h : (b.put x).Told w jobAt) (y : Stage) (t : Nat)
    (what : Happening) (same : x.place = y.place)
    (goOn : ∀ {job told}, Story w y.place job b.aborted told x →
      Story w y.place job b.aborted (told ++ [what]) y) :
    ((b.put y).record t y.place what).Told w jobAt := by
  obtain ⟨rest, fresh, job, found, story⟩ := h.of_put
  rw [same] at fresh found story
  refine (rest.record_own fresh t what).put y fresh found ?_
  simp only [Board.record, happenings_snoc_self]
  exact goOn story

theorem Told.step {failFast lossy : Bool} {b' : Board} (h : b.Told w jobAt)
    (step : Step w failFast lossy b b') : b'.Told w jobAt := by
  cases step with
  | @refuse b place job t aborted =>
      obtain ⟨rest, fresh, found, silent⟩ := h.of_wait
      refine (rest.record_own fresh t _).put (.reported place job.cancelled) fresh found ?_
      simp only [Board.record, Stage.place, happenings_snoc_self, silent, aborted]
      exact .refused
  | @start b place job t aborted =>
      obtain ⟨rest, fresh, found, silent⟩ := h.of_wait
      refine (rest.record_own fresh t _).put
        (.turning ⟨place, job, JobState.start job, job.steps⟩) fresh found ?_
      simp only [Board.record, Stage.place, happenings_snoc_self, silent, aborted]
      exact .started
  | @settle b r step rest s result t next turn last =>
      exact h.change (.turning { r with state := s, rest }) t _ rfl
        fun story => story.settled next turn last
  | @begin b r step prepared rest s t next turn =>
      -- Two things happen at once, so the stage is put back behind both.
      obtain ⟨others, fresh, job, found, story⟩ := h.of_put
      have told := (others.record_own fresh t (.stepStart r.job prepared)).record_own fresh t
        (.actionStart r.job prepared s.context)
      refine told.put (.acting { r with state := s, rest } step
        (w.behaviour { r with state := s, rest } prepared)) fresh found ?_
      simp only [Board.record, Stage.place, happenings_snoc_self]
      exact story.begun next turn
  | @ended b r step how t =>
      exact h.change (.acting r step how) t _ rfl fun story => story.ended
  | @complete b r step how result t last =>
      exact h.change (.turning { r with state := r.state.complete step how.ending.result }) t _ rfl
        fun story => story.completed last
  | close next =>
      obtain ⟨others, fresh, job, found, story⟩ := h.of_put
      exact others.put (.closing _) fresh found (story.closed next)
  | @report b r t =>
      exact (h.change (.reported r.place (r.state.outcome r.job)) t _ rfl
        fun story => story.reported).raise _
  | abort =>
      apply Told.raise
      apply h.record
      rintro i ⟨⟩
  | @balk b r step prepared rest s t =>
      obtain ⟨others, fresh, -⟩ := h.of_put
      exact others.record_own fresh t (.stepStart r.job prepared)
  | lose => exact h.of_put.1

theorem Told.steps {failFast lossy : Bool} {b' : Board} (h : b.Told w jobAt)
    (steps : Steps w failFast lossy b b') : b'.Told w jobAt := by
  induction steps with
  | refl => exact h
  | tail _ step ih => exact ih.step step

end Told

/-- The places on a board never change while no job is lost. -/
theorem places_step {w : World} {failFast : Bool} {b b' : Board}
    (step : Step w failFast false b b') : b'.places = b.places := by
  cases step with
  | refuse | start => exact (places_put _ _).trans (places_wait _ _ _).symm
  | settle | begin | complete | close | report =>
      simp only [Board.record, Board.raise, places, put, Multiset.map_cons, Stage.place]
  | ended | abort => rfl
  | balk fails | lose fails => cases fails

theorem places_steps {w : World} {failFast : Bool} {b b' : Board}
    (steps : Steps w failFast false b b') : b'.places = b.places := by
  induction steps with
  | refl => rfl
  | tail _ step ih => exact (places_step step).trans ih

end Board

end JobMatrix.Run
