import JobMatrix.Run.Job

/-! # The world around a run

The world decides how long each action takes, how it ends, what it writes, and
whether it asks to cancel the run.
-/

namespace JobMatrix.Run

/-- How an action behaves. -/
structure Behaviour where
  delay : Option Nat
  ending : ActionEnd
  aborts : Bool
  output : List String
  deriving Repr

/-- An observer of a run that fails. -/
inductive ObserverFailure
  | atStart (step message : String)
  | atFinish (step message : String)
  deriving Repr, DecidableEq

/-- The world around a run. -/
structure World where
  lead : Nat
  behaviour : Running → PlannedStep → Behaviour
  listens : Bool
  observer : Option ObserverFailure

/-- A world in which every action succeeds at once, after passing on two
    turns. -/
def World.dry (listens : Bool) (observer : Option ObserverFailure) : World :=
  ⟨2, fun _ _ => ⟨none, .completed ⟨true, none⟩, false, []⟩, listens, observer⟩

def World.failureAtStart? (w : World) (step : String) : Option String :=
  match w.observer with
  | some (.atStart id message) => if id = step then some message else none
  | _ => none

def World.failureAtFinish? (w : World) (step : String) : Option String :=
  match w.observer with
  | some (.atFinish id message) => if id = step then some message else none
  | _ => none

end JobMatrix.Run
