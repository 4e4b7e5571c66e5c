import Mathlib.Data.List.Forall2
import JobMatrix.CommandLine.Session
import JobMatrix.Proofs.Pattern.Selecting
import JobMatrix.Proofs.Run.Worker
import JobMatrix.Proofs.Success

/-! # What a session does

The parts of a session each add lines and end with a result or an error.  A
session that runs a workflow selects pipelines, reads its settings, runs every
selected pipeline in turn, and reports them all at the end.
-/

namespace JobMatrix

namespace Pipeline

end Pipeline

namespace CommandLine

open JobMatrix.Console (Color Line)

/-! ## Parts of a session -/

namespace Session

variable {α β : Type}

def Ends (x : Session α) (r : Except SessionError α) (said : List Line) : Prop :=
  ∀ lines, x.run.run lines = (r, lines ++ said)

theorem run_bind (x : Session α) (f : α → Session β) (lines : List Line) :
    (x >>= f).run.run lines = match x.run.run lines with
      | (.ok a, lines) => (f a).run.run lines
      | (.error e, lines) => (.error e, lines) := by
  rw [ExceptT.run_bind, StateT.run_bind]
  rcases x.run.run lines with ⟨r, lines⟩
  cases r <;> rfl

section Bind

variable {x : Session α} {f : α → Session β} {said : List Line}

theorem Ends.bind {a : α} {r : Except SessionError β} {more : List Line}
    (h : x.Ends (.ok a) said) (next : (f a).Ends r more) : (x >>= f).Ends r (said ++ more) := by
  intro lines
  rw [run_bind, h lines]
  exact (next (lines ++ said)).trans (by rw [List.append_assoc])

end Bind

end Session

/-! ## Selecting pipelines -/

namespace Invocation

end Invocation

/-! ## Running pipelines -/

namespace Ran

end Ran

namespace Invocation

/-- What a session prints before its pipelines run. -/
def opening (i : Invocation) : List Line :=
  if (i.setting "json").isOn then [] else [Line.info (Color.cyan.paint "\n🧮 Matrix Runner\n")]

/-- What a session prints of the pipelines that have run. -/
def closing (i : Invocation) (ran : List Ran) : List Line :=
  if (i.setting "json").isOn then [Ran.document ran]
  else ran.flatMap (Ran.lines (i.setting "verbose").isOn (Ran.log ran))

/-- Prints what there is to say of the pipelines that have run. -/
def conclude (i : Invocation) (ran : List Ran) : Session (List Ran) := do
  Session.say (i.closing ran)
  return ran

def body (m : Machine) (i : Invocation) : Session (List Ran) := do
  let selected ← i.pipelines m
  let overrides ← Session.check .setting i.overrides
  let ran ← liftExcept (Ran.all (i.world m) overrides selected)
  i.conclude ran

def planned (runners : RunnerTable) (selected : List Pipeline) : List Line :=
  (selected.flatMap fun p => (Plan.ofPipeline p runners).report p.name) ++ [Line.info ""]

/-- The programs that pipelines start; a dry run starts none. -/
def launches (m : Machine) (i : Invocation) (ran : List Ran) : List Shell.Launch :=
  if (i.setting "dryRun").isOn then [] else (host m).launches 1 (Ran.log ran)

end Invocation

end CommandLine

end JobMatrix
