import JobMatrix.Data.Json
import JobMatrix.Text.Units
import JobMatrix.Text.Lowercase
import JobMatrix.Text.Search

/-! # Values of expressions

A value is a scalar, a list or a map.  Lists and maps carry the node they
are: two of them are equal only if they are the same node.
-/

namespace JobMatrix.Expr

/-- The identity of a list or map: its place in the data it comes from. -/
abbrev Node := List Nat

/-- A value of an expression. -/
inductive Value
  | null
  | bool (value : Bool)
  | number (value : Number)
  | text (value : String)
  | list (node : Node) (items : List Value)
  | map (node : Node) (entries : List (String × Value))
  deriving Repr, BEq, Inhabited

namespace Value

mutual

def ofData (node : Node) : Data → Value
  | .absent | .null => null
  | .bool value => bool value
  | .number value => number value
  | .text value => text value
  | .list items => list node (ofItems node 0 items)
  | .map entries => map node (ofEntries node 0 entries)

def ofItems (node : Node) (i : Nat) : List Data → List Value
  | [] => []
  | item :: rest => ofData (i :: node) item :: ofItems node (i + 1) rest

def ofEntries (node : Node) (i : Nat) : List (String × Data) → List (String × Value)
  | [] => []
  | (_, .absent) :: rest => ofEntries node (i + 1) rest
  | (key, value) :: rest => (key, ofData (i :: node) value) :: ofEntries node (i + 1) rest

end

mutual

def toData : Value → Data
  | null => .null
  | bool value => .bool value
  | number value => .number value
  | text value => .text value
  | list _ items => .list (itemsToData items)
  | map _ entries => .map (entriesToData entries)

def itemsToData : List Value → List Data
  | [] => []
  | item :: rest => toData item :: itemsToData rest

def entriesToData : List (String × Value) → List (String × Data)
  | [] => []
  | (key, value) :: rest => (key, toData value) :: entriesToData rest

end

/-- Whether a value counts as true: everything except the empty value, false,
    zero, a number without a value, and the empty text. -/
def isTruthy : Value → Bool
  | null => false
  | bool value => value
  | number value => !value.isZero && !value.isNaN
  | text value => value ≠ ""
  | list .. | map .. => true

/-- The number that a value stands for when values of two kinds are compared. -/
def toNumber : Value → Number
  | null => 0
  | bool value => if value then 1 else 0
  | number value => value
  | text value => Number.ofText value
  | list .. | map .. => .nan

def toText : Value → String
  | null => ""
  | bool value => if value then "true" else "false"
  | number value => value.toText
  | text value => value
  | list node items => (toData (list node items)).toJson
  | map node entries => (toData (map node entries)).toJson

/-- Whether two values are equal: texts without regard to case, lists and maps
    by identity, and values of two kinds by the numbers they stand for. -/
def looseEquals : Value → Value → Bool
  | null, null => true
  | bool a, bool b => a == b
  | number a, number b => a.equals b
  | text a, text b => Text.toLower a == Text.toLower b
  | list a _, list b _ => a == b
  | map a _, map b _ => a == b
  | a, b => a.toNumber.equals b.toNumber

/-- The order of two values, as a number below, at or above zero: texts
    without regard to case, all other values by their difference. -/
def compare : Value → Value → Number
  | text a, text b =>
      let a := Text.toLower a
      let b := Text.toLower b
      if a = b then 0 else if Text.less a b then -1 else 1
  | a, b => a.toNumber - b.toNumber

/-- The value of a key of a map: the key as written, or else the first one
    that differs in case only. -/
def lookup (name : String) (entries : List (String × Value)) : Option Value :=
  let lower := Text.toLower name
  match entries.find? (fun entry => entry.1 == name) with
  | some entry => some entry.2
  | none => (entries.find? (fun entry => Text.toLower entry.1 == lower)).map Prod.snd

/-- The item of a list at a whole number, or the value of a key of a map; the
    empty value if there is none. -/
def property (target key : Value) : Value :=
  match target with
  | list _ items =>
      match key with
      | number n => (n.toNat?.bind (items[·]?)).getD null
      | _ => null
  | map _ entries => (lookup key.toText entries).getD null
  | _ => null

end Value

end JobMatrix.Expr
