import JobMatrix.Pattern.Escape

/-! # Classes in regular expressions

The text between brackets lists symbols, ranges of symbols and classes with a
letter of their own.  Where classes are sets, characters that belong to their
syntax have to be escaped; a class inside a class and an operation on classes
are not read, and make the class invalid.
-/

namespace JobMatrix.Pattern

/-- A piece of a class before ranges are formed. -/
inductive ClassPiece
  | code (n : Nat)
  | item (i : ClassItem)
  /-- A dash that may form a range. -/
  | dash
  deriving Repr, DecidableEq

namespace ClassPiece

def code? : ClassPiece → Option Nat
  | code n => some n
  | item _ => none
  | dash => some '-'.toNat

def alone : ClassPiece → ClassItem
  | code n => .range n n
  | item i => i
  | dash => .range '-'.toNat '-'.toNat

/-- Whether a character at the front of a text stands for nothing in a set: it
    belongs to the syntax of sets, or is doubled like an operation. -/
def isSetSyntax (c : Char) (rest : List Char) : Bool :=
  c ∈ ['(', ')', '[', '\x7b', '\x7d', '/', '|'] ||
    (rest.head? = some c && (isReserved c || c ∈ ['$', '*', '+', '.', '?', '^']))

/-- The pieces up to the closing bracket, and what follows it. -/
def read? (d : Dialect) : Nat → List Char → Option (List ClassPiece × List Char)
  | 0, _ => none
  | _ + 1, [] => none
  | _ + 1, ']' :: rest => some ([], rest)
  | fuel + 1, '-' :: rest => do
      let (more, after) ← read? d fuel rest
      return (dash :: more, after)
  | fuel + 1, '\\' :: rest =>
      match rest with
      | [] => none
      | 'b' :: rest => do
          let (more, after) ← read? d fuel rest
          return (code 8 :: more, after)
      | c :: tail =>
          match shorthand? c with
          | some i => do
              let (more, after) ← read? d fuel tail
              return (item i :: more, after)
          | none => do
              let (codes, rest) ← symbolEscape? d true rest
              let (more, after) ← read? d fuel rest
              return (codes.map code ++ more, after)
  | fuel + 1, c :: rest => do
      if d.hasSets && isSetSyntax c rest then none
      let (more, after) ← read? d fuel rest
      return ((d.codes c).map code ++ more, after)

/-- The items that pieces form: a dash between two symbols makes a range,
    which may not run backwards.  Beside a class with a letter of its own a
    dash stands for itself, unless the dialect is strict.  In a set a dash is
    never a symbol. -/
def items? (d : Dialect) : List ClassPiece → Option (List ClassItem)
  | [] => some []
  | x :: .dash :: y :: rest =>
      match x.code?, y.code? with
      | some first, some last =>
          if last < first || (d.hasSets && (x = dash || y = dash)) then none
          else (items? d rest).map (.range first last :: ·)
      | _, _ =>
          if d.isStrict then none
          else (items? d rest).map fun more => x.alone :: dash.alone :: y.alone :: more
  | x :: rest =>
      if d.hasSets && x = dash then none else (items? d rest).map (x.alone :: ·)

end ClassPiece

/-- The class behind an opening bracket, and what follows it. -/
def class? (d : Dialect) (cs : List Char) : Option (Regex × List Char) :=
  let (negated, cs) := match cs with
    | '^' :: rest => (true, rest)
    | _ => (false, cs)
  match ClassPiece.read? d (cs.length + 1) cs with
  | some (pieces, rest) =>
      (ClassPiece.items? d pieces).map fun items => (.set negated items, rest)
  | none => none

end JobMatrix.Pattern
