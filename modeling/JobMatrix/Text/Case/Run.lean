/-! # Case mappings as runs

A case mapping is stored as runs: characters at equal distances that all move
by the same amount.  Characters outside every run stay as they are.
-/

namespace JobMatrix.Text.Case

/-- Characters `first`, `first + step`, … up to `last`, mapped to `target`,
    `target + step`, … in order. -/
structure Run where
  first : Nat
  last : Nat
  step : Nat
  target : Nat
  deriving Repr, DecidableEq

namespace Run

def covers (r : Run) (n : Nat) : Bool :=
  r.first ≤ n && n ≤ r.last && (n - r.first) % r.step == 0

def image (r : Run) (n : Nat) : Nat :=
  r.target + (n - r.first)

def source? (r : Run) (n : Nat) : Option Nat :=
  let code := r.first + (n - r.target)
  if r.target ≤ n && r.covers code then some code else none

end Run

/-- The image of a code under a mapping. -/
def apply (runs : List Run) (n : Nat) : Nat :=
  match runs.find? (·.covers n) with
  | some r => r.image n
  | none => n

/-- All codes that a mapping moves to a given code. -/
def sources (runs : List Run) (n : Nat) : List Nat :=
  runs.filterMap (·.source? n)

def inRanges (ranges : List (Nat × Nat)) (n : Nat) : Bool :=
  ranges.any fun (first, last) => first ≤ n && n ≤ last

end JobMatrix.Text.Case
