import JobMatrix.Proofs.Run.Alone

/-! # One job of a run

Between two moments of a run a job goes its own way.  It does one thing after
another, the log tells of them in order at its place, and nothing that happens
at other places changes the stage it is at.  A job is executed by itself or
among others; what is said of its executions is said of both.
-/

namespace JobMatrix.Run

/-- What a job does next: what is told of it, and the stage it comes to, if it
    is not lost. -/
inductive Stage.Goes (w : World) (aborted : Bool) :
    Stage → List Happening → Option Stage → Prop
  | settle {r : Running} {step : PlannedStep} {rest : List PlannedStep} {s : JobState}
      {result : StepResult} (next : r.rest = step :: rest)
      (turn : r.state.turn r.job aborted step = .settled s)
      (last : s.results.getLast? = some result) :
      Goes w aborted (.turning r) [.stepFinish r.job result]
        (some (.turning { r with state := s, rest }))
  | begin {r : Running} {step prepared : PlannedStep} {rest : List PlannedStep} {s : JobState}
      (next : r.rest = step :: rest)
      (turn : r.state.turn r.job aborted step = .started s prepared) :
      Goes w aborted (.turning r)
        [.stepStart r.job prepared, .actionStart r.job prepared s.context]
        (some (.acting { r with state := s, rest } step
          (w.behaviour { r with state := s, rest } prepared)))
  | ended {r : Running} {step : PlannedStep} {how : Behaviour} :
      Goes w aborted (.acting r step how) [.actionEnd r.job step how.output]
        (some (.acting r step how))
  | complete {r : Running} {step : PlannedStep} {how : Behaviour} {result : StepResult}
      (last : (r.state.complete step how.ending.result).results.getLast? = some result) :
      Goes w aborted (.acting r step how) [.stepFinish r.job result]
        (some (.turning { r with state := r.state.complete step how.ending.result }))
  | close {r : Running} (next : r.rest = []) :
      Goes w aborted (.turning r) [] (some (.closing r))
  | report {r : Running} :
      Goes w aborted (.closing r) [.jobFinish r.job (r.state.outcome r.job)]
        (some (.reported r.place (r.state.outcome r.job)))
  | balk {r : Running} {step prepared : PlannedStep} {rest : List PlannedStep} {s : JobState}
      (next : r.rest = step :: rest)
      (turn : r.state.turn r.job aborted step = .started s prepared) :
      Goes w aborted (.turning r) [.stepStart r.job prepared] none
  | lose {x : Stage} : Goes w aborted x [] none

theorem Stage.Goes.place_eq {w : World} {aborted : Bool} {x y : Stage} {told : List Happening}
    (h : x.Goes w aborted told (some y)) : y.place = x.place := by
  cases h <;> rfl

namespace Board

def tell (time place : Nat) : List Happening → Board → Board
  | [], b => b
  | what :: more, b => tell time place more (b.record time place what)

theorem happenings_tell (time place : Nat) (told : List Happening) (b : Board) (i : Nat) :
    happenings (b.tell time place told).log i =
      happenings b.log i ++ if i = place then told else [] := by
  induction told generalizing b with
  | nil => simp [tell]
  | cons what more ih =>
      rw [tell, ih]
      by_cases own : i = place
      · subst own
        simp [record, happenings_snoc_self]
      · have other : some place ≠ some i := by simpa using Ne.symm own
        simp [record, happenings_snoc_other b.log (e := ⟨time, some place, what⟩) other, own]

/-- What a step comes to: a job is taken, a request to cancel arrives, or one
    job goes on. -/
inductive Change (w : World) : Board → Board → Prop
  | take {b b' : Board} {place : Nat} {job : PlannedJob} {x : Stage} {what : Happening} {t : Nat}
      (own : x.place = place) (waiting : b'.waiting = b.waiting)
      (stages : b'.stages = x ::ₘ b.stages) (log : b'.log = (b.tell t place [what]).log) :
      Change w { b with waiting := (place, job) :: b.waiting } b'
  | request {b b' : Board} {t : Nat} (waiting : b'.waiting = b.waiting)
      (stages : b'.stages = b.stages) (log : b'.log = (b.record t none .abort).log) : Change w b b'
  | goes {b b' : Board} {x : Stage} {y : Option Stage} {told : List Happening} {t : Nat}
      (goes : x.Goes w b.aborted told y) (waiting : b'.waiting = b.waiting)
      (stages : b'.stages = (y.elim b b.put).stages)
      (log : b'.log = (b.tell t x.place told).log) : Change w (b.put x) b'

def Has (b : Board) (place : Nat) : Option Stage → Prop
  | some x => x ∈ b.stages ∧ x.place = place
  | none => place ∉ b.places

section Steps

variable {w : World} {failFast lossy : Bool} {b b' : Board}

theorem change_of_step (step : Step w failFast lossy b b') : Change w b b' := by
  cases step with
  | refuse => exact .take rfl rfl rfl rfl
  | start => exact .take rfl rfl rfl rfl
  | settle next turn last => exact .goes (.settle next turn last) rfl rfl rfl
  | begin next turn => exact .goes (.begin next turn) rfl rfl rfl
  | ended => exact .goes .ended rfl rfl rfl
  | complete last => exact .goes (.complete last) rfl rfl rfl
  | close next => exact .goes (t := 0) (.close next) rfl rfl rfl
  | report => exact .goes .report rfl rfl rfl
  | abort => exact .request rfl rfl rfl
  | balk fails next turn => exact .goes (.balk next turn) rfl rfl rfl
  | lose => exact .goes (t := 0) .lose rfl rfl rfl

theorem places_congr {c : Board} (waiting : b.waiting = c.waiting) (stages : b.stages = c.stages) :
    b.places = c.places := by
  simp only [places, waiting, stages]

theorem places_le_of_change (h : Change w b b') : b'.places ≤ b.places := by
  cases h with
  | @take b b' place job x what t own waiting stages =>
      rw [places_wait, ← own, ← places_put]
      exact (places_congr (c := b.put x) waiting stages).le
  | request waiting stages => exact (places_congr waiting stages).le
  | @goes b b' x y told t goes waiting stages =>
      rw [places_put]
      cases y with
      | none =>
          rw [places_congr waiting stages]
          exact Multiset.le_cons_self _ _
      | some y =>
          rw [← goes.place_eq, ← places_put]
          exact (places_congr (c := b.put y) waiting stages).le

/-- A job that is on the board stays as it is or does what it does next. -/
theorem goes_of_change (distinct : b.places.Nodup) (h : Change w b b') {z : Stage}
    (member : z ∈ b.stages) :
    (z ∈ b'.stages ∧ happenings b'.log z.place = happenings b.log z.place) ∨
      ∃ told y, z.Goes w b.aborted told y ∧ b'.Has z.place y ∧
        happenings b'.log z.place = happenings b.log z.place ++ told := by
  cases h with
  | @take b b' place job x what t own waiting stages log =>
      rw [places_wait, Multiset.nodup_cons] at distinct
      have other : z.place ≠ place := by
        rintro rfl
        exact distinct.1 (place_of_mem_stages member)
      refine .inl ⟨stages ▸ Multiset.mem_cons_of_mem member, ?_⟩
      rw [log, happenings_tell, if_neg other, List.append_nil]
  | request waiting stages log =>
      refine .inl ⟨stages ▸ member, ?_⟩
      rw [log]
      exact happenings_snoc_other _ nofun
  | @goes b b' x y told t goes waiting stages log =>
      rw [places_put, Multiset.nodup_cons] at distinct
      rcases Multiset.mem_cons.mp member with rfl | member
      · refine .inr ⟨told, y, goes, ?_, ?_⟩
        · cases y with
          | none =>
              rw [Has, places_congr waiting stages]
              exact distinct.1
          | some y => exact ⟨stages ▸ Multiset.mem_cons_self y _, goes.place_eq⟩
        · rw [log, happenings_tell, if_pos rfl]
          rfl
      · have other : z.place ≠ x.place := by
          intro same
          exact distinct.1 (same ▸ place_of_mem_stages member)
        refine .inl ⟨?_, ?_⟩
        · rw [stages]
          cases y with
          | none => exact member
          | some y => exact Multiset.mem_cons_of_mem member
        · rw [log, happenings_tell, if_neg other, List.append_nil]
          rfl

/-- Nothing is told of a place where there is no job. -/
theorem happenings_of_absent (h : Change w b b') {place : Nat} (absent : place ∉ b.places) :
    happenings b'.log place = happenings b.log place := by
  cases h with
  | take own waiting stages log =>
      rw [places_wait, Multiset.mem_cons, not_or] at absent
      rw [log, happenings_tell, if_neg absent.1, List.append_nil]
  | request waiting stages log =>
      rw [log]
      exact happenings_snoc_other _ nofun
  | goes goes waiting stages log =>
      rw [places_put, Multiset.mem_cons, not_or] at absent
      rw [log, happenings_tell, if_neg absent.1, List.append_nil]
      rfl

theorem happenings_of_lost (h : Change w b b') {place : Nat} (lost : place ∉ b'.places) :
    happenings b'.log place = happenings b.log place ∨
      ∃ job step, happenings b'.log place = happenings b.log place ++ [.stepStart job step] := by
  cases h with
  | @take b b' at' job x what t own waiting stages log =>
      rw [places_congr (c := b.put x) waiting stages, places_put, Multiset.mem_cons, not_or,
        own] at lost
      rw [log, happenings_tell, if_neg lost.1, List.append_nil]
      exact .inl rfl
  | request waiting stages log =>
      rw [log]
      exact .inl (happenings_snoc_other _ nofun)
  | @goes b b' x y told t goes waiting stages log =>
      rw [log, happenings_tell]
      cases y with
      | some y =>
          rw [places_congr (c := b.put y) waiting stages, places_put, Multiset.mem_cons, not_or,
            goes.place_eq] at lost
          rw [if_neg lost.1, List.append_nil]
          exact .inl rfl
      | none =>
          split
          · cases goes with
            | balk next turn => exact .inr ⟨_, _, rfl⟩
            | lose => exact .inl (List.append_nil _)
          · exact .inl (List.append_nil _)

theorem aborted_of_step (step : Step w failFast lossy b b') (aborted : b.aborted = true) :
    b'.aborted = true := by
  cases step with
  | report | abort => exact Bool.or_eq_true_iff.mpr (.inl aborted)
  | refuse | start | settle | begin | ended | complete | close | balk | lose => exact aborted

theorem distinct_of_steps (distinct : b.places.Nodup) (steps : Steps w failFast lossy b b') :
    b'.places.Nodup := by
  induction steps with
  | refl => exact distinct
  | tail _ step ih => exact Multiset.nodup_of_le (places_le_of_change (change_of_step step)) ih

theorem Has.unique {place : Nat} {z : Option Stage} (has : b.Has place z)
    (distinct : b.places.Nodup) {x : Stage} (member : x ∈ b.stages) (own : x.place = place) :
    z = some x := by
  cases z with
  | none => exact absurd (own ▸ place_of_mem_stages member) has
  | some y =>
      have stages : (b.stages.map Stage.place).Nodup := (Multiset.nodup_add.mp distinct).2.1
      exact congrArg some (Multiset.inj_on_of_nodup_map stages y has.1 x member
        (has.2.trans own.symm))

/-- Induction over what the job at a place does during some steps: it goes on,
    or the run is cancelled. -/
theorem Has.follow {motive : Bool → Option Stage → List Happening → Prop} {place : Nat}
    {first : Option Stage} (has : b.Has place first) (distinct : b.places.Nodup)
    (start : motive b.aborted first [])
    (raise : ∀ z told, motive false z told → motive true z told)
    (go : ∀ aborted x told more z, motive aborted (some x) told → x.Goes w aborted more z →
      motive aborted z (told ++ more))
    (steps : Steps w failFast lossy b b') :
    ∃ z told, b'.Has place z ∧ happenings b'.log place = happenings b.log place ++ told ∧
      motive b'.aborted z told := by
  induction steps with
  | refl => exact ⟨first, [], has, (List.append_nil _).symm, start⟩
  | @tail c b' before step ih =>
      obtain ⟨z, told, has, same, holds⟩ := ih
      have change := change_of_step step
      have onward {z : Option Stage} {told : List Happening} (holds : motive c.aborted z told) :
          motive b'.aborted z told := by
        cases aborted : c.aborted with
        | true =>
            rw [aborted] at holds
            rw [aborted_of_step step aborted]
            exact holds
        | false =>
            rw [aborted] at holds
            cases b'.aborted with
            | false => exact holds
            | true => exact raise z told holds
      cases z with
      | none =>
          refine ⟨none, told, fun member => ?_, ?_, onward holds⟩
          · exact has (Multiset.mem_of_le (places_le_of_change change) member)
          · rw [happenings_of_absent change has, same]
      | some x =>
          obtain ⟨member, rfl⟩ := has
          rcases goes_of_change (distinct_of_steps distinct before) change member with
            ⟨still, silent⟩ | ⟨more, z, goes, has, tells⟩
          · exact ⟨some x, told, ⟨still, rfl⟩, silent.trans same, onward holds⟩
          · refine ⟨z, told ++ more, has, ?_, onward (go _ x told more z holds goes)⟩
            rw [tells, same, List.append_assoc]

/-- What holds all along the story of a job holds of all that is told of it: the
    story, which may end with the start of a step after which nobody goes on. -/
theorem tells_of_steps {motive : List Happening → Prop} {place : Nat} {job : PlannedJob}
    (silent : motive [])
    (story : ∀ {aborted told x}, Story w place job aborted told x → motive told)
    (lost : ∀ {told} j s, motive told → motive (told ++ [.stepStart j s]))
    {jobAt : Nat → Option PlannedJob} (told : b.Told w jobAt) (found : jobAt place = some job)
    (start : motive (happenings b.log place)) (steps : Steps w failFast lossy b b') :
    motive (happenings b'.log place) := by
  induction steps with
  | refl => exact start
  | @tail c b' before step ih =>
      have told := (told.steps before).step step
      by_cases present : place ∈ b'.places
      · rcases Multiset.mem_add.mp present with waits | stands
        · obtain ⟨entry, member, rfl⟩ := List.mem_map.mp (Multiset.mem_coe.mp waits)
          rw [(told.waiting entry member).2]
          exact silent
        · obtain ⟨x, member, rfl⟩ := Multiset.mem_map.mp stands
          obtain ⟨job', found', stage⟩ := told.stages x member
          obtain rfl := Option.some.inj (found.symm.trans found')
          exact story stage
      · rcases happenings_of_lost (change_of_step step) present with same | ⟨j, s, same⟩
        · rwa [same]
        · rw [same]
          exact lost j s ih

end Steps

end Board

namespace Pool

/-- The states of the executions of the job at a place, by itself or among
    others. -/
inductive Executes (w : World) (place : Nat) (job : PlannedJob) (p : Pool) : Prop
  | alone {c : Cancellation}
      (reached : Reaches w (ofJob place job (c.aborted && w.listens) c.abortAt) p)
  | among {jobs : List PlannedJob} {limit : Option Number} {failFast : Bool} {c : Cancellation}
      (found : jobs[place]? = some job) (reached : Reaches w (start w jobs limit failFast c) p)

section Executes

variable {w : World} {place : Nat} {job : PlannedJob} {p q : Pool}

/-- An execution takes steps from a board whose log tells no more of the job than
    that it has started; if it is executed by itself, the log leaves that out. -/
theorem Executes.steps (run : Executes w place job p) : ∃ jobAt b failFast lossy log,
    jobAt place = some job ∧ b.Told w jobAt ∧
      (happenings b.log place = [] ∨ happenings b.log place = [.jobStart job]) ∧
      Board.Steps w failFast lossy b { p.board with log } ∧
      (log = p.log ∨ log = ⟨0, some place, .jobStart job⟩ :: p.log) := by
  cases run with
  | @alone c reached =>
      have told := told_ofJob w place job (c.aborted && w.listens) c.abortAt
      have steps := Board.steps_after ⟨0, some place, .jobStart job⟩ (steps_of_reaches reached)
      have first : happenings [⟨0, some place, .jobStart job⟩] place = [.jobStart job] := by
        simp [happenings]
      exact ⟨_, _, _, _, _, if_pos rfl, told, .inr first, steps, .inr rfl⟩
  | @among jobs limit failFast c found reached =>
      exact ⟨_, _, _, _, p.log, found, told_start w jobs limit failFast c, .inl rfl,
        steps_of_reaches reached, .inl rfl⟩

theorem Executes.told (run : Executes w place job p) : ∃ jobAt log,
    jobAt place = some job ∧ ({ p.board with log } : Board).Told w jobAt ∧
      (log = p.log ∨ log = ⟨0, some place, .jobStart job⟩ :: p.log) := by
  obtain ⟨jobAt, b, failFast, lossy, log, found, told, -, steps, same⟩ := run.steps
  exact ⟨jobAt, log, found, told.steps steps, same⟩

theorem Executes.distinct (run : Executes w place job p) : p.board.places.Nodup := by
  obtain ⟨jobAt, log, -, told, -⟩ := run.told
  exact told.distinct

theorem Executes.isOf (run : Executes w place job p) {x : Stage} (member : x ∈ p.board.stages)
    (own : x.place = place) : x.IsOf place job := by
  obtain ⟨jobAt, log, found, told, -⟩ := run.told
  obtain ⟨job', found', story⟩ := told.stages x member
  subst own
  obtain rfl := Option.some.inj (found.symm.trans found')
  exact story.isOf

/-- The start of a job tells nothing of its steps. -/
theorem happenings_start (log : List Event) (place : Nat) (job : PlannedJob) :
    happenings (⟨0, some place, .jobStart job⟩ :: log) place =
      .jobStart job :: happenings log place := by
  simp [happenings]

theorem Executes.tells {motive : List Happening → Prop} (run : Executes w place job p)
    (silent : motive [])
    (story : ∀ {aborted told x}, Story w place job aborted told x → motive told)
    (lost : ∀ {told} j s, motive told → motive (told ++ [.stepStart j s]))
    (unstarted : ∀ {told}, motive (.jobStart job :: told) → motive told) :
    motive (happenings p.log place) := by
  obtain ⟨jobAt, b, failFast, lossy, log, found, told, first, steps, same⟩ := run.steps
  have start : motive (happenings b.log place) := by
    rcases first with first | first
    · rw [first]
      exact silent
    · rw [first]
      exact story .started
  have law := Board.tells_of_steps silent story lost told found start steps
  rcases same with rfl | rfl
  · exact law
  · apply unstarted
    rw [← happenings_start]
    exact law

theorem turning_of_ready {r : Running} (ready : .advance r ∈ p.ready) :
    .turning r ∈ p.board.stages := by
  have member : .turning r ∈ p.ready.flatMap Task.stages :=
    List.mem_flatMap.mpr ⟨.advance r, ready, List.mem_singleton.mpr rfl⟩
  simp only [board, stages, Multiset.mem_add, Multiset.mem_coe]
  exact .inl (.inl member)

end Executes

end Pool

end JobMatrix.Run
