import JobMatrix.Expr.Context
import JobMatrix.Expr.Error

/-! # Functions of expressions

Four functions read the status of the job.  The others search texts and
lists, fill placeholders, and join lists.
-/

namespace JobMatrix.Expr

def statusFunctions : List String :=
  ["cancelled", "success", "failure", "always"]

def lowerText (value : Value) : List Char :=
  Text.lowerChars value.toText.toList

/-- A piece of a template of the function `format`. -/
inductive FormatPiece
  | char (c : Char)
  | placeholder (index : Nat) (digits : List Char)
  deriving Repr, DecidableEq

/-- The index in braces behind an opening brace, and the text behind it. -/
def placeholder? (cs : List Char) : Option (List Char × List Char) :=
  let digits := cs.takeWhile Number.isDigit
  match cs.dropWhile Number.isDigit with
  | '\x7d' :: rest => if digits.isEmpty then none else some (digits, rest)
  | _ => none

theorem length_of_placeholder? {cs digits rest : List Char}
    (h : placeholder? cs = some (digits, rest)) : rest.length < cs.length := by
  unfold placeholder? at h
  split at h
  · next heq =>
      simp only at h
      split at h
      · cases h
      · simp only [Option.some.injEq, Prod.mk.injEq] at h
        have := (List.dropWhile_suffix Number.isDigit (l := cs)).length_le
        rw [heq, h.2] at this
        exact this
  · cases h

/-- The pieces of a template: a doubled brace is a brace, and an index in
    braces is a placeholder. -/
def formatPieces (cs : List Char) : List FormatPiece :=
  match cs with
  | [] => []
  | '\x7b' :: '\x7b' :: rest => .char '\x7b' :: formatPieces rest
  | '\x7d' :: '\x7d' :: rest => .char '\x7d' :: formatPieces rest
  | c :: rest =>
      if c = '\x7b' then
        match h : placeholder? rest with
        | some (digits, after) =>
            have := length_of_placeholder? h
            .placeholder (Number.digitsValue digits) digits :: formatPieces after
        | none => .char c :: formatPieces rest
      else .char c :: formatPieces rest
termination_by cs.length

/-- The text of a piece: a placeholder becomes the value at its index, or
    stays as written if there is none. -/
def FormatPiece.fill (values : List Value) : FormatPiece → List Char
  | char c => [c]
  | placeholder place digits =>
      match values[place]? with
      | some value => value.toText.toList
      | none => '\x7b' :: digits ++ ['\x7d']

def formatText (template : String) (values : List Value) : String :=
  String.ofList ((formatPieces template.toList).flatMap (·.fill values))

/-- Whether a list has an item equal to a value, or the text of any other
    value contains its text, without regard to case. -/
def containsValue (search item : Value) : Bool :=
  match search with
  | .list _ items => items.any (·.looseEquals item)
  | search => Text.contains (lowerText search) (lowerText item)

/-- The items of a list as texts with a separator between them, or the text
    of any other value. -/
def joinValues (items : Value) (separator : String) : String :=
  match items with
  | .list _ items => separator.intercalate (items.map Value.toText)
  | other => other.toText

def apply (context : Context) (name : String) (arguments : List Value) : Except Cause Value :=
  match name, arguments with
  | "success", [] => .ok (.bool (context.hasStatus "success"))
  | "failure", [] => .ok (.bool (context.hasStatus "failure"))
  | "cancelled", [] => .ok (.bool (context.hasStatus "cancelled"))
  | "always", [] => .ok (.bool true)
  | "contains", [search, item] => .ok (.bool (containsValue search item))
  | "startswith", [text, start] =>
      .ok (.bool (Text.startsWith (lowerText text) (lowerText start)))
  | "endswith", [text, ending] =>
      .ok (.bool (Text.endsWith (lowerText text) (lowerText ending)))
  | "format", template :: values => .ok (.text (formatText template.toText values))
  | "join", [items] => .ok (.text (joinValues items ","))
  | "join", [items, separator] => .ok (.text (joinValues items separator.toText))
  | name, _ =>
      if name ∈ statusFunctions then .error (.wrongArity name 0 (some 0))
      else if name ∈ ["contains", "startswith", "endswith"] then
        .error (.wrongArity name 2 (some 2))
      else if name = "format" then .error (.wrongArity name 1 none)
      else if name = "join" then .error (.wrongArity name 1 (some 2))
      else .error (.unknownFunction name)

end JobMatrix.Expr
