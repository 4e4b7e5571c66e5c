import JobMatrix.Number.Shortest
import JobMatrix.Dict

/-! # Plain data

A document is plain data: scalars, lists, and maps with text keys in order.
-/

namespace JobMatrix

/-- Plain data. -/
inductive Data
  | absent
  | null
  | bool (value : Bool)
  | number (value : Number)
  | text (value : String)
  | list (items : List Data)
  | map (entries : List (String × Data))
  deriving Repr, BEq, Inhabited

namespace Data

/-- The map that entries build when they are written one after another. -/
def ofEntries (entries : List (String × Data)) : Data :=
  map (Entries.insertAll [] entries)

def get? (key : String) : Data → Option Data
  | map entries => Entries.get? key entries
  | _ => none

/-- The value under a key of a map; a missing key has no value. -/
def getD (key : String) (d : Data) : Data :=
  (d.get? key).getD absent

def isAbsent : Data → Bool
  | absent => true
  | _ => false

def isNothing : Data → Bool
  | absent | null => true
  | _ => false

end Data

end JobMatrix
