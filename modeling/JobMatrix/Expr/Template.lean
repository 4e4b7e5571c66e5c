import JobMatrix.Expr.Eval
import JobMatrix.Dict
import JobMatrix.Text.Blank

/-! # Templates

A template is text with expressions between a dollar sign with two opening
braces and two closing braces.  Each expression is replaced by the text of
its value; the substituted text is not looked at again.
-/

namespace JobMatrix.Expr

def opening : List Char := ['$', '\x7b', '\x7b']

def closing : List Char := ['\x7d', '\x7d']

/-- A part of a template. -/
inductive Segment
  /-- A character that stands for itself. -/
  | char (c : Char)
  /-- The text of an expression, as written between the braces. -/
  | expression (source : List Char)
  deriving Repr, DecidableEq

/-- The expression at the front of a template, and the text behind it: the
    opening, and everything up to the first closing. -/
def expressionAt? (cs : List Char) : Option (List Char × List Char) :=
  (Text.dropStart? opening cs).bind (Text.breakAt? closing)

theorem length_of_breakAt? {mark cs before after : List Char}
    (h : Text.breakAt? mark cs = some (before, after)) : after.length ≤ cs.length := by
  induction cs generalizing before after with
  | nil =>
      simp only [Text.breakAt?] at h
      split at h <;> simp_all
  | cons c rest ih =>
      simp only [Text.breakAt?] at h
      split at h
      · next found =>
          simp only [Option.some.injEq, Prod.mk.injEq] at h
          have := Text.dropStart?_eq_some.1 found
          rw [this, ← h.2]
          simp
      · simp only [Option.map_eq_some_iff, Prod.mk.injEq] at h
        obtain ⟨⟨b, a⟩, found, _, rfl⟩ := h
        exact Nat.le_succ_of_le (ih found)

theorem length_of_expressionAt? {cs source after : List Char}
    (h : expressionAt? cs = some (source, after)) : after.length < cs.length := by
  simp only [expressionAt?, Option.bind_eq_some_iff] at h
  obtain ⟨rest, opened, found⟩ := h
  have := length_of_breakAt? found
  rw [Text.dropStart?_eq_some.1 opened]
  simp only [opening, List.cons_append, List.nil_append, List.length_cons]
  omega

def segments (cs : List Char) : List Segment :=
  match cs with
  | [] => []
  | c :: rest =>
      match h : expressionAt? (c :: rest) with
      | some (source, after) =>
          have := length_of_expressionAt? h
          .expression source :: segments after
      | none => .char c :: segments rest
termination_by cs.length
decreasing_by
  · exact length_of_expressionAt? h
  · exact Nat.lt_succ_self _

def Segment.render (context : Context) : Segment → Except Error (List Char)
  | char c => .ok [c]
  | expression source => do
      let value ← evaluateText (String.ofList (Text.trimChars source)) context
      return value.toText.toList

/-- The texts of segments one after another, up to the first error. -/
def renderAll (context : Context) : List Segment → Except Error (List Char)
  | [] => .ok []
  | segment :: rest => do
      let text ← segment.render context
      let more ← renderAll context rest
      return text ++ more

def interpolate (template : String) (context : Context) : Except Error String := do
  return String.ofList (← renderAll context (segments template.toList))

def interpolateEntries (context : Context) :
    List (String × String) → Except Error (List (String × String))
  | [] => .ok []
  | (key, template) :: rest => do
      let text ← interpolate template context
      let more ← interpolateEntries context rest
      return (key, text) :: more

def interpolateDict (templates : Dict String) (context : Context) : Except Error (Dict String) := do
  return Dict.ofList (← interpolateEntries context templates.entries)

mutual

/-- The matrix keys that an expression reads by a literal key, in order of
    appearance. -/
def matrixKeys : Expr → List String
  | .index object key =>
      let here := match object, key with
        | .context "matrix", .literal (.string name) => [name]
        | _, _ => []
      here ++ matrixKeys object ++ matrixKeys key
  | .not operand => matrixKeys operand
  | .logical _ left right => matrixKeys left ++ matrixKeys right
  | .comparison _ left right => matrixKeys left ++ matrixKeys right
  | .call _ arguments => allMatrixKeys arguments
  | .literal _ | .context _ => []

def allMatrixKeys : List Expr → List String
  | [] => []
  | e :: rest => matrixKeys e ++ allMatrixKeys rest

end

/-- The matrix keys of segments, up to the first malformed expression. -/
def segmentKeys : List Segment → Except Error (List String)
  | [] => .ok []
  | .char _ :: rest => segmentKeys rest
  | .expression source :: rest => do
      let e ← parse (String.ofList (Text.trimChars source))
      let more ← segmentKeys rest
      return matrixKeys e ++ more

/-- The matrix keys that a template reads by name, each once, in order of
    appearance. -/
def collectMatrixKeys (template : String) : Except Error (List String) := do
  return (← segmentKeys (segments template.toList)).eraseDups

end JobMatrix.Expr
