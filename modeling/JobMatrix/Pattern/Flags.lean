import JobMatrix.Text.Case.Fold
import JobMatrix.Text.Units

/-! # Flags of a regular expression

A regular expression matches 16-bit units or, in Unicode mode, whole
characters; both are called symbols and stand for their codes.  Without
regard to case, two symbols are equal if they fold to the same one.
-/

namespace JobMatrix.Pattern

open JobMatrix.Text.Case

/-- The flags of a regular expression. -/
structure Flags where
  hasIndices : Bool
  isGlobal : Bool
  ignoreCase : Bool
  multiline : Bool
  dotAll : Bool
  unicode : Bool
  unicodeSets : Bool
  sticky : Bool
  deriving Repr, DecidableEq

namespace Flags

def none : Flags := ⟨false, false, false, false, false, false, false, false⟩

def caseless : Flags := { none with ignoreCase := true }

def add? (f : Flags) : Char → Option Flags
  | 'd' => if f.hasIndices then .none else some { f with hasIndices := true }
  | 'g' => if f.isGlobal then .none else some { f with isGlobal := true }
  | 'i' => if f.ignoreCase then .none else some { f with ignoreCase := true }
  | 'm' => if f.multiline then .none else some { f with multiline := true }
  | 's' => if f.dotAll then .none else some { f with dotAll := true }
  | 'u' => if f.unicode || f.unicodeSets then .none else some { f with unicode := true }
  | 'v' => if f.unicode || f.unicodeSets then .none else some { f with unicodeSets := true }
  | 'y' => if f.sticky then .none else some { f with sticky := true }
  | _ => .none

/-- The flags that letters write, each at most once. -/
def ofChars? (cs : List Char) : Option Flags :=
  cs.foldlM add? none

def wholeChars (f : Flags) : Bool :=
  f.unicode || f.unicodeSets

/-- Whether a match starts where the last one ended. -/
def remembers (f : Flags) : Bool :=
  f.isGlobal || f.sticky

/-- The upper-case form of a unit, if it is one unit and does not lead into
    ASCII. -/
def upperUnit (n : Nat) : Nat :=
  if n < 0x80 then if 0x61 ≤ n && n ≤ 0x7A then n - 0x20 else n else apply upperRuns n

def foldChar (n : Nat) : Nat :=
  if n < 0x80 then if 0x41 ≤ n && n ≤ 0x5A then n + 0x20 else n else apply foldRuns n

def fold (f : Flags) (n : Nat) : Nat :=
  if f.ignoreCase then if f.wholeChars then foldChar n else upperUnit n else n

/-- The symbols that may be equal to a given one: itself, its folded form, and
    those with the same folded form. -/
def equivalents (f : Flags) (n : Nat) : List Nat :=
  if !f.ignoreCase then [n]
  else
    let folded := f.fold n
    let ascii := if 0x41 ≤ folded && folded ≤ 0x5A then [folded + 0x20]
      else if 0x61 ≤ folded && folded ≤ 0x7A then [folded - 0x20] else []
    n :: folded :: ascii ++ sources (if f.wholeChars then foldRuns else upperRuns) folded

end Flags

end JobMatrix.Pattern
