import JobMatrix.Yaml.Cursor

/-! # Block scalars

A block scalar is a header and the indented lines below it.  A literal one
keeps its line breaks; a folded one joins lines that are not indented further.
The header also says what happens to the line breaks at the end.  These are the
two block styles of YAML 1.2.
-/

namespace JobMatrix.Yaml

/-- What happens to the line breaks at the end of a block scalar. -/
inductive Chomping
  | strip
  | clip
  | keep
  deriving Repr, DecidableEq

/-- The header of a block scalar. -/
structure BlockHeader where
  folded : Bool
  indent : Option Nat
  chomping : Option Chomping
  deriving Repr, DecidableEq

def readIndicators? (h : BlockHeader) : Line → Option (BlockHeader × Line)
  | [] => some (h, [])
  | c :: rest =>
      if isSpace c then some (h, c :: rest)
      else if c = '-' || c = '+' then
        if h.chomping.isSome then none
        else readIndicators? { h with chomping := some (if c = '-' then .strip else .keep) } rest
      else if '1' ≤ c && c ≤ '9' then
        if h.indent.isSome then none
        else readIndicators? { h with indent := some (c.toNat - 0x30) } rest
      else none

/-- Reads a header behind its mark; only a comment may follow it on the
    line. -/
def readHeader? (folded : Bool) (l : Line) : Option BlockHeader :=
  match readIndicators? ⟨folded, none, none⟩ l with
  | none => none
  | some (h, rest) =>
      match dropSpaces rest with
      | [] => some h
      | c :: _ => if c = '#' then some h else none

/-- The lines at the start that are empty or indented by at least `depth`. -/
def blockLines (depth : Nat) : List Line → List Line
  | [] => []
  | l :: rest =>
      if isEmptyLine l || depth ≤ indentOf l then l :: blockLines depth rest else []

/-- Whether a line has nothing but spaces, and not more than the indentation. -/
def isTrailing (depth : Nat) (l : Line) : Bool :=
  isEmptyLine l && l.length ≤ depth

/-- What stands between two lines of a folded scalar. -/
inductive Fold
  | nothing
  | space
  | break
  | double
  deriving Repr, DecidableEq

def Fold.text : Fold → List Char
  | nothing => []
  | space => [' ']
  | .break => ['\n']
  | double => ['\n', '\n']

/-- Joins the lines of a folded scalar.  Lines that are indented further keep
    the line breaks around them; `deep` tells whether the last line was one. -/
def foldLines (fold : Fold) (deep : Bool) : List Line → List Char
  | [] => []
  | [] :: rest =>
      if fold = .break then '\n' :: foldLines .break deep rest else foldLines .break deep rest
  | (c :: l) :: rest =>
      if isSpace c then
        let fold : Fold :=
          if fold = .space then .break else if !deep && fold = .break then .double else fold
        fold.text ++ c :: l ++ foldLines .break true rest
      else fold.text ++ c :: l ++ foldLines .space false rest

def blockText (folded : Bool) (lines : List Line) : List Char :=
  if folded then
    let (leading, content) := lines.span isEmptyLine
    leading.flatMap (· ++ ['\n']) ++ foldLines .nothing false content
  else ['\n'].intercalate lines

/-- The value of a block scalar, given its lines without their indentation:
    those with content and those at the end. -/
def blockValue (h : BlockHeader) (content trailing : List Line) : List Char :=
  let chomping := h.chomping.getD .clip
  if content.isEmpty then
    if chomping = .keep then trailing.map fun _ => '\n' else []
  else
    blockText h.folded content ++ match chomping with
      | .strip => []
      | .clip => ['\n']
      | .keep => '\n' :: trailing.map fun _ => '\n'

/-- Reads a block scalar behind its mark.  Its lines are indented by at least
    `floor`: by the given indentation on top of the parent's, or else as the
    first line with content, whose empty predecessors must not be longer. -/
def readBlockScalar? (folded : Bool) (floor : Nat) (c : Cursor) : Option (List Char × Cursor) := do
  let h ← readHeader? folded c.line
  let first := c.lines.find? (!isEmptyLine ·)
  let depth := match h.indent, first with
    | some n, _ => max floor 1 - 1 + n
    | none, some l => if floor ≤ indentOf l then indentOf l else floor
    | none, none => floor
  let lines := blockLines depth c.lines
  let rest := c.lines.drop lines.length
  let trailing :=
    if lines.all isEmptyLine then lines.length
    else (lines.reverse.takeWhile (isTrailing depth)).length
  let content := lines.take (lines.length - trailing)
  if h.indent.isNone && (content.takeWhile isEmptyLine).any (depth < ·.length) then none
  match rest with
  | l :: _ => if (l.drop (indentOf l)).head? = some '\t' then none
  | [] => pure ()
  return (blockValue h (content.map (·.drop depth)) (lines.drop (lines.length - trailing)),
    ⟨[], 0, rest⟩)

end JobMatrix.Yaml
