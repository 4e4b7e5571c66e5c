/-! # A place in a document

A document is a list of lines.  A cursor stands on one of them; behind it there
is the rest of the line and the lines that follow.  Blanks, comments and the
indentation are those of YAML 1.2.
-/

namespace JobMatrix.Yaml

/-- A line of a document, without its line break. -/
abbrev Line := List Char

/-- A place in a document. -/
structure Cursor where
  line : Line
  column : Nat
  lines : List Line
  deriving Repr, DecidableEq

def isSpace (c : Char) : Bool :=
  c = ' ' || c = '\t'

/-- The marks of flow collections, which end plain scalars inside of them. -/
def isFlowMark (c : Char) : Bool :=
  c = ',' || c = '[' || c = ']' || c = '\x7b' || c = '\x7d'

def startsBlank : Line → Bool
  | [] => true
  | c :: _ => isSpace c

/-- Whether a line is over or goes on with a blank or, in a flow collection,
    with one of its marks. -/
def startsGap (flow : Bool) : Line → Bool
  | [] => true
  | c :: _ => isSpace c || (flow && isFlowMark c)

def dropSpaces (l : Line) : Line :=
  l.dropWhile isSpace

def dropTrailing (l : Line) : Line :=
  (l.reverse.dropWhile isSpace).reverse

def indentOf (l : Line) : Nat :=
  (l.takeWhile (· = ' ')).length

def isEmptyLine (l : Line) : Bool :=
  l.all (· = ' ')

/-- What stands between two parts of a scalar: a space for a single line
    break, and otherwise a line break for each empty line. -/
def joint : Nat → List Char
  | 0 => [' ']
  | blanks => List.replicate blanks '\n'

/-- What comes next in a document. -/
inductive Next
  /-- Nothing. -/
  | finished
  /-- Something on the same line; a tab may stand before it. -/
  | here (c : Cursor) (tab : Bool)
  /-- Something on a later line, behind some spaces; a tab may stand between
      them and it. -/
  | below (c : Cursor) (indent : Nat) (tab : Bool)
  deriving Repr

def firstContent : List Line → Next
  | [] => .finished
  | l :: rest =>
      let body := dropSpaces l
      match body with
      | [] => firstContent rest
      | '#' :: _ => firstContent rest
      | _ =>
          let column := l.length - body.length
          .below ⟨body, column, rest⟩ (indentOf l) (indentOf l < column)

namespace Cursor

def drop (c : Cursor) (n : Nat) : Cursor :=
  ⟨c.line.drop n, c.column + n, c.lines⟩

def before (c : Cursor) (rest : Line) : Cursor :=
  c.drop (c.line.length - rest.length)

/-- What comes next, behind blanks and comments.  A comment on the same line
    has to stand behind a blank. -/
def next? (c : Cursor) : Option Next :=
  let rest := dropSpaces c.line
  match rest with
  | [] => some (firstContent c.lines)
  | '#' :: _ => if rest.length < c.line.length then some (firstContent c.lines) else none
  | _ => some (.here (c.before rest) ((c.line.takeWhile isSpace).contains '\t'))

/-- Whether another cursor stands on a later line. -/
def breaksBefore (c d : Cursor) : Bool :=
  d.lines.length < c.lines.length

end Cursor

end JobMatrix.Yaml
