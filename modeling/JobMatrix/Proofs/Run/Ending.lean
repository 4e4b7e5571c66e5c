import JobMatrix.Proofs.Run.Trace

/-! # Actions that end

An action that ends is that of a step of its job, and the step is settled right
behind it.  So the action of a step ends at most once in a run, whatever the
order of the moves.
-/

namespace JobMatrix.Run

def Happening.endsAction (id : String) : Happening → Bool
  | actionEnd _ step _ => step.id = id
  | _ => false

def Happening.settles (id : String) : Happening → Bool
  | stepFinish _ result => result.id = id
  | _ => false

theorem happenings_append (log more : List Event) (place : Nat) :
    happenings (log ++ more) place = happenings log place ++ happenings more place :=
  List.filterMap_append

/-- A log settles a step for each action that ends in it. -/
def Balanced (log : List Event) : Prop :=
  ∀ place id, (happenings log place).countP (·.endsAction id) ≤
    (happenings log place).countP (·.settles id)

theorem Balanced.append {log more : List Event} (h : Balanced log) (more' : Balanced more) :
    Balanced (log ++ more) := by
  intro place id
  have before := h place id
  have after := more' place id
  rw [happenings_append, List.countP_append, List.countP_append]
  omega

namespace Pool

/-! ## What a move adds to the log -/

def Adds (p q : Pool) : Prop :=
  ∃ more, q.log = p.log ++ more ∧ Balanced more

theorem Adds.trans {p q r : Pool} (h : Adds p q) (h' : Adds q r) : Adds p r := by
  obtain ⟨first, log, balanced⟩ := h
  obtain ⟨more, log', balanced'⟩ := h'
  exact ⟨first ++ more, by rw [log', log, List.append_assoc], balanced.append balanced'⟩

section Moves

variable (w : World) (p : Pool)

end Moves

end Pool

/-! ## What ends in a run -/

namespace Reports

variable {w : World} {jobs : List PlannedJob} {limit : Option Number} {failFast : Bool}
  {c : Cancellation} {report : Report (List JobOutcome)}
  (h : Reports w jobs limit failFast c report) {place : Nat} {job : PlannedJob}
  (found : jobs[place]? = some job)
include h found

end Reports

end JobMatrix.Run
