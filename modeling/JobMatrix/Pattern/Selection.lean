import JobMatrix.Pattern.JobPattern
import JobMatrix.Workflow.Basic

/-! # Selecting pipelines

A pipeline is selected if one of the patterns matches its id.  The patterns
are tested in order up to the first that matches, and each goes on with the
next id from where its last test has left it.
-/

namespace JobMatrix.Pattern

/-- Patterns, each with the unit at which its next test starts. -/
abbrev Progress := List (JobPattern × Nat)

namespace Progress

def start (patterns : List JobPattern) : Progress :=
  patterns.map (·, 0)

/-- Whether a pattern matches an id, and how the patterns go on. -/
def test : Progress → String → Bool × Progress
  | [], _ => (false, [])
  | (p, start) :: rest, id =>
      let (matched, next) := p.test start id
      if matched then (true, (p, next) :: rest)
      else
        let (matched, rest) := test rest id
        (matched, (p, next) :: rest)

/-- The pipelines with an id that is matched when its turn comes. -/
def select (patterns : Progress) : List Pipeline → List Pipeline
  | [] => []
  | p :: rest =>
      let (matched, patterns) := patterns.test p.id
      if matched then p :: select patterns rest else select patterns rest

end Progress

def select (patterns : List JobPattern) (pipelines : List Pipeline) : List Pipeline :=
  if patterns.isEmpty then pipelines else (Progress.start patterns).select pipelines

end JobMatrix.Pattern
