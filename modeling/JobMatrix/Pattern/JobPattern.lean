import JobMatrix.Total
import JobMatrix.Console.Basic
import JobMatrix.Pattern.Match
import JobMatrix.Pattern.Parser
import JobMatrix.Text.Blank
import JobMatrix.Text.Search

/-! # Patterns of job ids

A pattern is a regular expression between slashes with its flags behind them,
or a plain id, which matches itself without regard to case.  A pattern that is
global or sticky remembers where its last match ended and goes on from there.
-/

namespace JobMatrix.Pattern

/-- A regular expression that job ids are tested against. -/
structure JobPattern where
  source : String
  flags : Flags
  regex : Regex
  deriving Repr, DecidableEq

/-- A text in which no character has a meaning of its own; a slash has none
    here. -/
def literally (cs : List Char) : List Char :=
  cs.flatMap fun c => if isSpecial c && c ≠ '/' then ['\\', c] else [c]

/-- The regular expression and the letters of its flags that a text without
    blanks around it stands for. -/
def reading (input : List Char) : List Char × List Char :=
  let plain := ('^' :: (literally input ++ ['$']), ['i'])
  match input with
  | '/' :: rest =>
      match Text.breakLast? '/' rest with
      | some (body, letters) => (body, if letters.isEmpty then ['i'] else letters)
      | none => plain
  | _ => plain

namespace JobPattern

/-- The pattern that a text without blanks around it stands for, if it is
    valid. -/
def ofChars? (input : List Char) : Option JobPattern := do
  let (body, letters) := reading input
  let flags ← Flags.ofChars? letters
  let source := String.ofList body
  return ⟨source, flags, ← Regex.parse? flags source⟩

def warning (given : String) : Console.Line :=
  ⟨.warn, "Invalid job pattern: " ++ given ++ " <SyntaxError>"⟩

/-- The patterns that texts stand for, with a warning for each invalid one;
    blank texts are left out. -/
def readAll : List String → List JobPattern × List Console.Line
  | [] => ([], [])
  | given :: rest =>
      let (patterns, warnings) := readAll rest
      let input := Text.trimChars given.toList
      if input.isEmpty then (patterns, warnings)
      else match ofChars? input with
        | some p => (p :: patterns, warnings)
        | none => (patterns, warning given :: warnings)

def ofText? (text : String) : Option JobPattern :=
  ofChars? (Text.trimChars text.toList)

theorem readAll_eq (texts : List String) :
    readAll texts = ((Text.nonblank texts).filterMap ofText?,
      ((Text.nonblank texts).filter fun text => (ofText? text).isNone).map warning) := by
  induction texts with
  | nil => rfl
  | cons text rest ih =>
      have empty := Text.isEmpty_trimChars_iff text
      by_cases blank : Text.trim text = ""
      · rw [readAll, ih, Text.nonblank_cons_of_blank blank]
        exact if_pos (empty.mpr blank)
      · rw [readAll, ih, Text.nonblank_cons blank]
        dsimp only
        rw [if_neg (mt empty.mp blank)]
        cases read : ofText? text with
        | none =>
            have invalid : ofChars? (Text.trimChars text.toList) = none := read
            simp [invalid, read]
        | some p =>
            have valid : ofChars? (Text.trimChars text.toList) = some p := read
            simp [valid, read]

/-- Where a search may start: half a pair is no symbol of a whole character,
    so the search steps back to its first unit. -/
def startingAt (flags : Flags) (start : Nat) (subject : String) : List Nat × List Nat :=
  go [] start (if flags.wholeChars then subject.toList.map fun c => (c.toNat, Text.charSize c)
    else (Text.units subject.toList).map (·, 1))
where
  /-- Passes symbols as long as they end by the given unit. -/
  go (passed : List Nat) (left : Nat) : List (Nat × Nat) → List Nat × List Nat
    | [] => (passed, [])
    | (code, size) :: rest =>
        if size ≤ left then go (code :: passed) (left - size) rest
        else (passed, code :: rest.map Prod.fst)

def unitCount (codes : List Nat) : Nat :=
  total (fun n => if n < 0x10000 then 1 else 2) codes

def test (p : JobPattern) (start : Nat) (subject : String) : Bool × Nat :=
  let start := if p.flags.remembers then start else 0
  if Text.size subject.toList < start then (false, 0)
  else
    let (passed, ahead) := startingAt p.flags start subject
    match p.regex.search? p.flags passed ahead with
    | some found => (true, if p.flags.remembers then unitCount found.passed else 0)
    | none => (false, 0)

end JobPattern

end JobMatrix.Pattern
