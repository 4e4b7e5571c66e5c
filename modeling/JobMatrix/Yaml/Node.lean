import JobMatrix.Data.Json
import JobMatrix.Yaml.Cursor

/-! # Nodes of a document

A document is a tree of nodes.  A scalar is the text that is written and how
it is written; what value it has is decided by the core schema of YAML 1.2.  A
node can have an anchor, and an alias stands for the last node before it with
that anchor.  A map with two keys of one value is refused, as the library `yaml`
does unless it is told otherwise.
-/

namespace JobMatrix.Yaml

/-- How a scalar is written. -/
inductive Style
  /-- Without quotes; the text decides about the kind of value. -/
  | plain
  /-- In quotes or as a block; the value is a text. -/
  | quoted
  deriving Repr, DecidableEq

/-- A node of a document. -/
inductive Node
  | scalar (style : Style) (tag : Option String) (text : String)
  | again (anchor : String)
  | list (items : List Node)
  | map (entries : List (Node × Node))
  | anchored (anchor : String) (node : Node)
  deriving Repr, Inhabited

def Node.empty : Node := .scalar .plain none ""

/-! ## Scalars of the core schema -/

def decimalInteger? (cs : List Char) : Option Number :=
  let (negative, digits) := Number.takeSign cs
  if digits.isEmpty || !digits.all Number.isDigit then none
  else some (Number.ofDecimal negative (Number.digitsValue digits) 0)

/-- An integer in a given base, behind its prefix. -/
def based? (base : Nat) (cs : List Char) : Option Number :=
  if cs.isEmpty then none else (Number.digitsValue? base cs).map Number.ofNat

/-- The integer that a text writes: octal, hexadecimal or decimal. -/
def integer? (cs : List Char) : Option Number :=
  match cs with
  | '0' :: 'o' :: rest => based? 8 rest
  | '0' :: 'x' :: rest => based? 16 rest
  | _ => decimalInteger? cs

def special? (cs : List Char) : Option Number :=
  let (negative, rest) := Number.takeSign cs
  if rest = ".inf".toList || rest = ".Inf".toList || rest = ".INF".toList then
    some (.infinity negative)
  else if cs = ".nan".toList || cs = ".NaN".toList || cs = ".NAN".toList then some .nan
  else none

/-- The number that a text writes and that is not an integer by its form: with
    a fraction or exponent, infinite or no number. -/
def real? (cs : List Char) : Option Number :=
  if (decimalInteger? cs).isSome then none else (special? cs).or (Number.readDecimal? cs)

def number? (cs : List Char) : Option Number :=
  (integer? cs).or (real? cs)

/-- The truth value that a text writes. -/
def bool? : String → Option Bool
  | "true" | "True" | "TRUE" => some true
  | "false" | "False" | "FALSE" => some false
  | _ => none

/-- Whether a text writes the empty value. -/
def isNull : String → Bool
  | "" | "~" | "null" | "Null" | "NULL" => true
  | _ => false

def coreValue (text : String) : Data :=
  if isNull text then .null
  else match bool? text with
    | some b => .bool b
    | none => match number? text.toList with
      | some n => .number n
      | none => .text text

/-- The value of a scalar.  A tag of a kind of value picks that kind, if the
    text writes one; any other tag makes it a text. -/
def scalarValue (style : Style) (tag : Option String) (text : String) : Data :=
  match tag, style with
  | none, .plain => coreValue text
  | none, .quoted => .text text
  | some "!!null", _ => if isNull text then .null else .text text
  | some "!!bool", _ => ((bool? text).map .bool).getD (.text text)
  | some "!!int", _ => ((integer? text.toList).map .number).getD (.text text)
  | some "!!float", _ => ((real? text.toList).map .number).getD (.text text)
  | some _, _ => .text text

namespace Node

def bare : Node → Node
  | anchored _ node => node.bare
  | node => node

/-- Whether two values of scalars are the same key. -/
def sameValue : Data → Data → Bool
  | .null, .null => true
  | .bool a, .bool b => a == b
  | .number a, .number b => a.equals b
  | .text a, .text b => a == b
  | _, _ => false

/-- Whether two keys are scalars of the same value. -/
def sameKey (a b : Node) : Bool :=
  match a.bare, b.bare with
  | scalar s t x, scalar s' t' x' => sameValue (scalarValue s t x) (scalarValue s' t' x')
  | _, _ => false

def uniqueMap? (entries : List (Node × Node)) : Option Node :=
  if (entries.map Prod.fst).Pairwise (fun a b => sameKey a b = false) then some (map entries) else none

/-! ## Plain data -/

mutual

def flowText : Data → String
  | .list [] => "[]"
  | .list items => "[ " ++ ", ".intercalate (flowTexts items) ++ " ]"
  | .map [] => "\x7b\x7d"
  | .map entries => "\x7b " ++ ", ".intercalate (flowPairs entries) ++ " \x7d"
  | .text text => text
  | .number n => n.toText
  | .bool b => if b then "true" else "false"
  | .null | .absent => "null"

def flowTexts : List Data → List String
  | [] => []
  | item :: rest => flowText item :: flowTexts rest

def flowPairs : List (String × Data) → List String
  | [] => []
  | (key, .null) :: rest => key :: flowPairs rest
  | (key, value) :: rest => (key ++ ": " ++ flowText value) :: flowPairs rest

end

def keyText : Data → String
  | .null | .absent => ""
  | key => flowText key

/-- The values of the anchors, the last one first. -/
abbrev Anchors := List (String × Data)

mutual

/-- The plain data of a node, or the name of an alias without an anchor before
    it. -/
def toData (anchors : Anchors) : Node → Except String (Data × Anchors)
  | scalar style tag text => .ok (scalarValue style tag text, anchors)
  | again name =>
      match anchors.lookup name with
      | some value => .ok (value, anchors)
      | none => .error name
  | list items => do
      let (values, anchors) ← itemsData anchors items
      return (.list values, anchors)
  | map entries => do
      let (values, anchors) ← entriesData anchors entries
      return (.ofEntries values, anchors)
  | anchored name node => do
      let (value, anchors) ← toData anchors node
      return (value, (name, value) :: anchors)

def itemsData (anchors : Anchors) : List Node → Except String (List Data × Anchors)
  | [] => .ok ([], anchors)
  | item :: rest => do
      let (value, anchors) ← toData anchors item
      let (values, anchors) ← itemsData anchors rest
      return (value :: values, anchors)

def entriesData (anchors : Anchors) :
    List (Node × Node) → Except String (List (String × Data) × Anchors)
  | [] => .ok ([], anchors)
  | (key, value) :: rest => do
      let (key, anchors) ← toData anchors key
      let (value, anchors) ← toData anchors value
      let (values, anchors) ← entriesData anchors rest
      return ((keyText key, value) :: values, anchors)

end

end Node

end JobMatrix.Yaml
