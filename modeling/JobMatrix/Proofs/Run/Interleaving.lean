import Mathlib.Logic.Relation
import JobMatrix.Run.Pool

/-! # Every order of a run

`Pool.run` takes the workers first come first served and the timers by their
times.  A run of jobs may do otherwise: whichever worker can go on may do so
next, whichever action is under way may end next, and a request to cancel may
arrive between any two of these moves.  What is said of every order of the
moves is said of `runJobs`, which takes one of them.
-/

namespace JobMatrix.Run

/-- A move of a run. -/
inductive Pool.Move (w : World) : Pool → Pool → Prop
  | perform {p : Pool} {before after : List Task} {task : Task}
      (ready : p.ready = before ++ task :: after) :
      Move w p (({ p with ready := before ++ after } : Pool).perform w task)
  | fire {p : Pool} {before after : List Timer} {t : Timer} (time : Nat)
      (timers : p.timers = before ++ t :: after) :
      Move w p
        (({ p with timers := before ++ after, clock := time } : Pool).fire w t.alarm)
  | abort {p : Pool} : Move w p (p.abort w)

/-- The states that some moves lead to. -/
abbrev Pool.Reaches (w : World) : Pool → Pool → Prop :=
  Relation.ReflTransGen (Pool.Move w)

/-- A run is over when no worker can go on or waits for an action. -/
def Pool.IsOver (p : Pool) : Prop :=
  p.ready = [] ∧ ∀ t ∈ p.timers, t.alarm.endsAction = false

/-- The first state of a run of jobs that can be cancelled from outside. -/
def Pool.start (w : World) (jobs : List PlannedJob) (limit : Option Number) (failFast : Bool)
    (c : Cancellation) : Pool :=
  Pool.ofJobs jobs limit failFast (c.aborted && w.listens) c.abortAt

/-- The reports that a run of jobs can give, in any order of its moves: those
    of its last states, if no observer has failed. -/
def Reports (w : World) (jobs : List PlannedJob) (limit : Option Number) (failFast : Bool)
    (c : Cancellation) (report : Report (List JobOutcome)) : Prop :=
  ∃ p : Pool, Pool.Reaches w (Pool.start w jobs limit failFast c) p ∧ p.IsOver ∧
    p.failure = none ∧ report = ⟨p.log, p.outcomesInOrder jobs.length⟩

namespace Pool

theorem split_of_earliest? {timers others : List Timer} {t : Timer}
    (h : earliest? timers = some (t, others)) :
    ∃ before after, timers = before ++ t :: after ∧ others = before ++ after := by
  induction timers generalizing t others with
  | nil => simp [earliest?] at h
  | cons head rest ih =>
      unfold earliest? at h
      split at h
      · next alone =>
          cases h
          cases rest with
          | nil => exact ⟨[], [], rfl, rfl⟩
          | cons second more =>
              unfold earliest? at alone
              split at alone
              · cases alone
              · split at alone <;> cases alone
      · next u found hs =>
          split at h
          · cases h
            obtain ⟨before, after, rfl, rfl⟩ := ih hs
            exact ⟨head :: before, after, rfl, rfl⟩
          · cases h
            exact ⟨[], rest, rfl, rfl⟩

/-- The next state of a run is one of its moves. -/
theorem move_of_step? {w : World} {p q : Pool} (h : p.step? w = some q) : Move w p q := by
  unfold step? at h
  split at h
  · cases h
  · split at h
    · next task ready first =>
        cases h
        exact @Move.perform w p [] ready task first
    · split at h
      · obtain ⟨⟨t, timers⟩, found, rfl⟩ := Option.map_eq_some_iff.mp h
        obtain ⟨before, after, split, rfl⟩ := split_of_earliest? found
        exact .fire t.time split
      · cases h

theorem reaches_run (w : World) (p : Pool) : Reaches w p (p.run w) := by
  fun_induction run p w with
  | case1 => exact .refl
  | case2 p q step ih => exact .head (move_of_step? step) ih

theorem step?_run (w : World) (p : Pool) : (p.run w).step? w = none := by
  fun_induction run p w with
  | case1 p step => exact step
  | case2 p q step ih => exact ih

theorem earliest?_isSome {timers : List Timer} (h : timers ≠ []) : (earliest? timers).isSome := by
  cases timers with
  | nil => exact absurd rfl h
  | cons t rest =>
      unfold earliest?
      split
      · rfl
      · split <;> rfl

/-- A run that no observer has ended stops only when it is over. -/
theorem isOver_of_step? {w : World} {p : Pool} (failure : p.failure = none)
    (h : p.step? w = none) : p.IsOver := by
  unfold step? at h
  simp only [failure, Option.isSome_none, Bool.false_eq_true, if_false] at h
  split at h
  · cases h
  · next empty =>
      split at h
      · next waits =>
          have some : (earliest? p.timers).isSome := by
            apply earliest?_isSome
            intro none
            simp [none] at waits
          simp only [Option.map_eq_none_iff] at h
          simp [h] at some
      · next idle =>
          refine ⟨empty, fun t member => ?_⟩
          have := idle
          simp only [List.any_eq_true, not_exists, not_and, Bool.not_eq_true] at this
          exact this t member

end Pool

theorem reports_of_runJobs {w : World} {jobs : List PlannedJob} {limit : Option Number}
    {failFast : Bool} {c : Cancellation} {report : Report (List JobOutcome)}
    (h : runJobs w jobs limit failFast c = .ok report) :
    Reports w jobs limit failFast c report := by
  simp only [runJobs] at h
  split at h
  · cases h
  · next failure =>
      cases h
      have ended := Pool.isOver_of_step? failure (Pool.step?_run w _)
      exact ⟨_, Pool.reaches_run w _, ended, failure, rfl⟩

def oneStep (index : Nat) : PlannedJob where
  index := index
  name := "lint"
  matrix := Dict.empty
  env := Dict.empty
  steps := [{
    id := "lint"
    name := "lint"
    platforms := none
    inputs := Dict.empty
    env := Dict.empty
    condition := none
    run := none
    uses := some "lint"
    shell := none
    workingDirectory := none
    policy := .fatal }]
  platform := .own .linux
  runnerOs := some "Linux"
  runsOn := "ubuntu-latest"
  shell := none

end JobMatrix.Run
