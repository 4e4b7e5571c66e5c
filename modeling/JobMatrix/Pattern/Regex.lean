import JobMatrix.Pattern.Flags
import JobMatrix.Text.Blank

/-! # Regular expressions

The syntax tree of a regular expression, and the classes of symbols that it
can ask for.
-/

namespace JobMatrix.Pattern

/-- A class with a letter of its own. -/
inductive Shorthand
  | digit
  | space
  | word
  deriving Repr, DecidableEq

/-- A part of a class. -/
inductive ClassItem
  | range (first last : Nat)
  | shorthand (kind : Shorthand) (negated : Bool)
  deriving Repr, DecidableEq

/-- A regular expression. -/
inductive Regex
  /-- The empty text. -/
  | nothing
  /-- One symbol. -/
  | symbol (code : Nat)
  /-- Any symbol, perhaps not a line break. -/
  | any
  /-- A symbol in a class or outside of it. -/
  | set (negated : Bool) (items : List ClassItem)
  /-- The start of the text or of a line. -/
  | start
  /-- The end of the text or of a line. -/
  | finish
  /-- A place between a symbol of a word and another place, or any other
      place. -/
  | boundary (negated : Bool)
  /-- One after another. -/
  | both (first second : Regex)
  /-- The first, or else the second. -/
  | either (first second : Regex)
  /-- A group whose text is remembered under a number. -/
  | group (number : Nat) (body : Regex)
  /-- A look at what follows or precedes. -/
  | look (ahead negated : Bool) (body : Regex)
  /-- The text of a group again. -/
  | again (number : Nat)
  /-- Repetition within bounds, as often or as seldom as possible; each round
      forgets the groups from `first` up to `next`. -/
  | loop (body : Regex) (least : Nat) (most : Option Nat) (greedy : Bool) (first next : Nat)
  deriving Repr, DecidableEq

def isLineBreak (n : Nat) : Bool :=
  n = 10 || n = 13 || n = 0x2028 || n = 0x2029

def isAsciiWord (n : Nat) : Bool :=
  (0x30 ≤ n && n ≤ 0x39) || (0x41 ≤ n && n ≤ 0x5A) || n = 0x5F || (0x61 ≤ n && n ≤ 0x7A)

/-- Whether a symbol belongs to a word; without regard to case, characters
    that fold into ASCII do. -/
def isWord (f : Flags) (n : Nat) : Bool :=
  isAsciiWord n || (f.wholeChars && f.ignoreCase && isAsciiWord (f.fold n))

/-- Whether a symbol is in a class with a letter of its own. -/
def Shorthand.has (f : Flags) (n : Nat) : Shorthand → Bool
  | digit => 0x30 ≤ n && n ≤ 0x39
  | space => Text.isBlank (Char.ofNat n) && n ≠ 0
  | word => isWord f n

def ClassItem.has (f : Flags) (n : Nat) : ClassItem → Bool
  | range first last => first ≤ n && n ≤ last
  | shorthand kind negated => kind.has f n != negated

/-- Whether a symbol is accepted by a class: some symbol equal to it is in a
    part of the class. -/
def inClass (f : Flags) (negated : Bool) (items : List ClassItem) (n : Nat) : Bool :=
  ((f.equivalents n).any fun e => items.any (·.has f e)) != negated

end JobMatrix.Pattern
