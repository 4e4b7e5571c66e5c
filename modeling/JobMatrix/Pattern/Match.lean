import JobMatrix.Pattern.Regex

/-! # Matching

A regular expression is matched by backtracking: each part tries its choices
in order and hands the text that is left to what comes after it.  Looking
behind reads the text backwards.
-/

namespace JobMatrix.Pattern

/-- A place in a text, and the groups that have matched. -/
structure Spot where
  passed : List Nat
  ahead : List Nat
  groups : List (Nat × List Nat)
  deriving Repr, DecidableEq

namespace Spot

/-- The next symbol in a direction, and the place behind it. -/
def next? (s : Spot) (forward : Bool) : Option (Nat × Spot) :=
  if forward then
    match s.ahead with
    | n :: rest => some (n, ⟨n :: s.passed, rest, s.groups⟩)
    | [] => none
  else
    match s.passed with
    | n :: rest => some (n, ⟨rest, n :: s.ahead, s.groups⟩)
    | [] => none

def step? (s : Spot) (forward : Bool) (accepts : Nat → Bool) : Option Spot :=
  match s.next? forward with
  | some (n, t) => if accepts n then some t else none
  | none => none

/-- Passes a text, folded symbol by folded symbol. -/
def pass? (f : Flags) (forward : Bool) : List Nat → Spot → Option Spot
  | [], s => some s
  | n :: rest, s =>
      match s.step? forward fun m => f.fold m = f.fold n with
      | some t => pass? f forward rest t
      | none => none

/-- The text between two places in a direction. -/
def between (s t : Spot) (forward : Bool) : List Nat :=
  if forward then (t.passed.take (t.passed.length - s.passed.length)).reverse
  else t.ahead.take (t.ahead.length - s.ahead.length)

def forget (s : Spot) (first next : Nat) : Spot :=
  { s with groups := s.groups.filter fun g => g.1 < first || next ≤ g.1 }

def remember (s : Spot) (number : Nat) (text : List Nat) : Spot :=
  { s with groups := (number, text) :: s.groups.filter (·.1 != number) }

def textOf (s : Spot) (number : Nat) : List Nat :=
  (s.groups.lookup number).getD []

def atStart (s : Spot) (lines : Bool) : Bool :=
  match s.passed with
  | [] => true
  | n :: _ => lines && isLineBreak n

/-- Whether the place is at the end of the text or, by lines, of a line. -/
def atFinish (s : Spot) (lines : Bool) : Bool :=
  match s.ahead with
  | [] => true
  | n :: _ => lines && isLineBreak n

/-- Whether a word starts or ends at the place. -/
def atBoundary (s : Spot) (f : Flags) : Bool :=
  s.passed.head?.any (isWord f) != s.ahead.head?.any (isWord f)

end Spot

/-- What comes after a part: it goes on from a place, or fails. -/
abbrev Rest := Spot → Option Spot

/-- Repeats a part.  Behind the least count, a round that passes nothing
    fails. -/
def repeated (body : Spot → Rest → Option Spot) (greedy : Bool) (first next : Nat) :
    Nat → Nat → Option Nat → Spot → Rest → Option Spot
  | 0, _, _, _, _ => none
  | fuel + 1, least, most, s, k =>
      if most = some 0 then k s
      else
        let more := fun t =>
          if least = 0 && t.passed.length = s.passed.length then none
          else repeated body greedy first next fuel (least - 1) (most.map (· - 1)) t k
        let round := fun (_ : Unit) => body (s.forget first next) more
        if least ≠ 0 then round ()
        else if greedy then (round ()).or (k s)
        else (k s).or (round ())

/-- Matches a part at a place in a direction, and what comes after it. -/
def Regex.run (f : Flags) (forward : Bool) : Regex → Spot → Rest → Option Spot
  | nothing, s, k => k s
  | symbol n, s, k => (s.step? forward fun m => f.fold m = f.fold n).bind k
  | any, s, k => (s.step? forward fun m => f.dotAll || !isLineBreak m).bind k
  | set negated items, s, k => (s.step? forward (inClass f negated items)).bind k
  | start, s, k => if s.atStart f.multiline then k s else none
  | finish, s, k => if s.atFinish f.multiline then k s else none
  | boundary negated, s, k => if s.atBoundary f != negated then k s else none
  | both a b, s, k =>
      if forward then a.run f forward s fun t => b.run f forward t k
      else b.run f forward s fun t => a.run f forward t k
  | either a b, s, k => (a.run f forward s k).or (b.run f forward s k)
  | group number body, s, k =>
      body.run f forward s fun t => k (t.remember number (s.between t forward))
  | look ahead negated body, s, k =>
      match body.run f ahead s some with
      | some t => if negated then none else k { s with groups := t.groups }
      | none => if negated then k s else none
  | again number, s, k =>
      let text := s.textOf number
      (s.pass? f forward (if forward then text else text.reverse)).bind k
  | loop body least most greedy first next, s, k =>
      repeated (body.run f forward) greedy first next
        (least + s.ahead.length + s.passed.length + 1) least most s k

def Regex.matchAt? (f : Flags) (r : Regex) (s : Spot) : Option Spot :=
  r.run f true s some

/-- The place where the first match ends that starts at a place or, unless the
    flags forbid it, later. -/
def Regex.search? (f : Flags) (r : Regex) (passed : List Nat) : List Nat → Option Spot
  | [] => r.matchAt? f ⟨passed, [], []⟩
  | n :: rest =>
      match r.matchAt? f ⟨passed, n :: rest, []⟩ with
      | some t => some t
      | none => if f.sticky then none else search? f r (n :: passed) rest

end JobMatrix.Pattern
