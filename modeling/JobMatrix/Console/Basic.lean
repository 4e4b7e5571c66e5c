/-! # Console

Everything that is printed goes to the console as lines, each at a level.
-/

namespace JobMatrix.Console

/-- The level of a line. -/
inductive Level
  | log
  | info
  | warn
  | error
  deriving Repr, DecidableEq

/-- A line at its level; its text may contain line breaks. -/
structure Line where
  level : Level
  text : String
  deriving Repr, DecidableEq

def Line.info (text : String) : Line := ⟨.info, text⟩

end JobMatrix.Console
