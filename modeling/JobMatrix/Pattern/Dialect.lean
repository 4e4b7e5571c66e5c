import JobMatrix.Pattern.Flags

/-! # Dialects of regular expressions

How a regular expression is read depends on its flags and on its groups: in
Unicode mode nothing is taken literally by mistake, and the escapes that ask
for the text of a group depend on the groups of the whole expression.

Not all of the syntax is read.  Properties of characters, and the nested classes,
strings and operations of classes that are sets, count as invalid here.
-/

namespace JobMatrix.Pattern

/-- What the reader of a regular expression knows about it as a whole. -/
structure Dialect where
  flags : Flags
  groups : List (Option (List Char))
  deriving Repr, DecidableEq

/-- The remembered groups of a regular expression in order.  Parentheses in
    classes and escaped ones open no group. -/
def groupsOf (inClass : Bool) : List Char → List (Option (List Char))
  | [] => []
  | ['\\'] => []
  | '\\' :: _ :: rest => groupsOf inClass rest
  | '[' :: rest => groupsOf true rest
  | ']' :: rest => groupsOf false rest
  | '(' :: rest =>
      if inClass then groupsOf inClass rest
      else match rest with
        | '?' :: '<' :: c :: more =>
            if c = '=' || c = '!' then groupsOf inClass rest
            else some ((c :: more).takeWhile (· ≠ '>')) :: groupsOf inClass rest
        | '?' :: _ => groupsOf inClass rest
        | _ => none :: groupsOf inClass rest
  | _ :: rest => groupsOf inClass rest

namespace Dialect

def of (flags : Flags) (source : List Char) : Dialect :=
  ⟨flags, groupsOf false source⟩

/-- Whether everything has to be written by the book. -/
def isStrict (d : Dialect) : Bool :=
  d.flags.wholeChars

/-- Whether classes are sets, in which more characters have a meaning of their
    own. -/
def hasSets (d : Dialect) : Bool :=
  d.flags.unicodeSets

def names (d : Dialect) : List (List Char) :=
  d.groups.filterMap id

def hasNames (d : Dialect) : Bool :=
  !d.names.isEmpty

def numberOf? (d : Dialect) (name : List Char) : Option Nat :=
  (d.groups.findIdx? (· = some name)).map (· + 1)

def codes (d : Dialect) (c : Char) : List Nat :=
  if d.isStrict then [c.toNat] else Text.charUnits c

end Dialect

/-- Whether a character can stand in the name of a group. -/
def isNameChar (c : Char) : Bool :=
  c.isAlphanum || c = '$' || c = '_' || 0x80 ≤ c.toNat

def isGroupName : List Char → Bool
  | [] => false
  | c :: rest => isNameChar c && !c.isDigit && rest.all isNameChar

end JobMatrix.Pattern
