import JobMatrix.Total
import JobMatrix.Yaml.Collection
import JobMatrix.Text.Search

/-! # Documents

A text holds one document.  Lines before a document mark may be comments and
directives, and nothing but comments may follow an end mark.

The program has its files read by the library `yaml`.  What is modelled is what
that library makes of a text: YAML 1.2 with the core schema.  The theorems about
workflows use one fact of it, `Yaml.keyed_of_read`: in the data of a document no
map has a key twice.
-/

namespace JobMatrix.Yaml

/-- Why a text has no value. -/
inductive Error
  | malformed
  | unresolvedAlias (anchor : String)
  deriving Repr, DecidableEq

def dropByteOrderMark (cs : List Char) : List Char :=
  match cs with
  | '\uFEFF' :: rest => rest
  | cs => cs

def dropReturn (l : Line) : Line :=
  if l.getLast? = some '\r' then l.dropLast else l

def linesOf (text : String) : List Line :=
  let lines := (Text.splitAt '\n' (dropByteOrderMark text.toList)).map dropReturn
  if lines.getLast? = some [] then lines.dropLast else lines

def isIdle (l : Line) : Bool :=
  match dropSpaces l with
  | [] => true
  | c :: _ => c = '#'

/-- The rest of a line behind a mark of three characters at its start. -/
def afterMark? (mark : Char) : Line → Option Line
  | a :: b :: c :: rest =>
      if a = mark && b = mark && c = mark && startsBlank rest then some rest else none
  | _ => none

/-- Whether a line starts or ends a document. -/
def isMark (l : Line) : Bool :=
  (afterMark? '-' l).isSome || (afterMark? '.' l).isSome

/-- A document in a text. -/
structure Document where
  first : Line
  marked : Bool
  body : List Line
  deriving Repr, DecidableEq

/-- Whether nothing follows a document: no line, or an end mark with nothing
    but comments behind it. -/
def isEnd : List Line → Bool
  | [] => true
  | l :: rest =>
      match afterMark? '.' l with
      | some more => isIdle more && rest.all isIdle
      | none => false

def findDocument? (directives : Bool) : List Line → Option Document
  | [] => if directives then none else some ⟨[], false, []⟩
  | l :: rest =>
      match afterMark? '-' l with
      | some first =>
          let (body, more) := rest.span (!isMark ·)
          if isEnd more then some ⟨first, true, body⟩ else none
      | none =>
          if isIdle l then findDocument? directives rest
          else if l.head? = some '%' then findDocument? true rest
          else
            let (body, more) := (l :: rest).span (!isMark ·)
            if !directives && isEnd more then some ⟨[], false, body⟩ else none

def Document.node? (d : Document) : Option Node := do
  let size := total (·.length + 1) d.body + d.first.length + 1
  let start : Cursor := ⟨d.first, if d.marked then 3 else 0, d.body⟩
  let (node, stop) ← readBlock? (8 * size + 16) 0 ⟨false, false⟩ start
  match stop.next? with
  | some .finished => some node
  | _ => none

def read (text : String) : Except Error Data :=
  match findDocument? false (linesOf text) >>= Document.node? with
  | none => .error .malformed
  | some node =>
      match node.toData [] with
      | .ok (value, _) => .ok value
      | .error anchor => .error (.unresolvedAlias anchor)

end JobMatrix.Yaml
