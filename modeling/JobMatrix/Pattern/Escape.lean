import JobMatrix.Pattern.Dialect
import JobMatrix.Pattern.Regex
import JobMatrix.Number.Decimal

/-! # Escapes in regular expressions

A backslash gives the text behind it another meaning: a symbol by its letter
or its code, a class with a letter of its own, or the text of a group.  A class
by a property of its characters has no reading here, and is invalid wherever
everything has to be written by the book.
-/

namespace JobMatrix.Pattern

/-- The code of a fixed count of hexadecimal digits, and what follows. -/
def hexCode? (count : Nat) (cs : List Char) : Option (Nat × List Char) :=
  let digits := cs.take count
  if digits.length < count then none
  else (Number.digitsValue? 16 digits).map fun n => (n, cs.drop count)

def bracedCode? (cs : List Char) : Option (Nat × List Char) :=
  let digits := cs.takeWhile (· ≠ '\x7d')
  match cs.dropWhile (· ≠ '\x7d') with
  | _ :: rest =>
      if digits.isEmpty then none
      else match Number.digitsValue? 16 digits with
        | some n => if n ≤ 0x10FFFF then some (n, rest) else none
        | none => none
  | [] => none

/-- The code of a whole character behind `u`: in braces, of four digits, or of
    two units that form a pair. -/
def characterCode? : List Char → Option (Nat × List Char)
  | '\x7b' :: rest => bracedCode? rest
  | cs => do
      let (lead, rest) ← hexCode? 4 cs
      match rest with
      | '\\' :: 'u' :: more =>
          match hexCode? 4 more with
          | some (trail, after) =>
              if Text.isLead lead && Text.isTrail trail then
                return (0x10000 + (lead - 0xD800) * 0x400 + (trail - 0xDC00), after)
              else return (lead, rest)
          | none => return (lead, rest)
      | _ => return (lead, rest)

def isOctalDigit (c : Char) : Bool :=
  '0' ≤ c && c ≤ '7'

/-- The code below 256 of at most three octal digits, and what follows. -/
def octalCode (cs : List Char) : Nat × List Char :=
  go 3 0 cs
where
  /-- Goes on with a code as long as digits may follow. -/
  go : Nat → Nat → List Char → Nat × List Char
    | 0, code, cs => (code, cs)
    | _ + 1, code, [] => (code, [])
    | more + 1, code, c :: rest =>
        if isOctalDigit c && code < 32 then go more (code * 8 + (c.toNat - 0x30)) rest
        else (code, c :: rest)

/-- Whether a character has a meaning of its own, so that a backslash takes it
    away. -/
def isSpecial (c : Char) : Bool :=
  c ∈ ['^', '$', '\\', '.', '*', '+', '?', '(', ')', '[', ']', '\x7b', '\x7d', '|', '/']

/-- Whether a character is kept for operations on sets. -/
def isReserved (c : Char) : Bool :=
  c ∈ ['&', '-', '!', '#', '%', ',', ':', ';', '<', '=', '>', '@', '\x60', '~']

/-- The symbols of a character that stands for itself behind a backslash. -/
def itself? (d : Dialect) (inClass : Bool) (c : Char) : Option (List Nat) :=
  if d.isStrict then
    if isSpecial c || (inClass && (c = '-' || (d.hasSets && isReserved c))) then some [c.toNat]
    else none
  else if c = 'k' && d.hasNames then none
  else some (d.codes c)

/-- The symbols that the text behind a backslash stands for, and what
    follows.  Without strictness an escape that is not finished stands for its
    letter. -/
def symbolEscape? (d : Dialect) (inClass : Bool) : List Char → Option (List Nat × List Char)
  | [] => none
  | 'f' :: rest => some ([0x0C], rest)
  | 'n' :: rest => some ([0x0A], rest)
  | 'r' :: rest => some ([0x0D], rest)
  | 't' :: rest => some ([0x09], rest)
  | 'v' :: rest => some ([0x0B], rest)
  | 'c' :: rest =>
      let plain := if d.isStrict then none else some (['\\'.toNat], 'c' :: rest)
      match rest with
      | c :: after =>
          if c.isAlpha || (inClass && !d.isStrict && (c.isDigit || c = '_')) then
            some ([c.toNat % 32], after)
          else plain
      | [] => plain
  | 'x' :: rest =>
      match hexCode? 2 rest with
      | some (n, after) => some ([n], after)
      | none => if d.isStrict then none else some (['x'.toNat], rest)
  | 'u' :: rest =>
      if d.isStrict then (characterCode? rest).map fun (n, after) => ([n], after)
      else match hexCode? 4 rest with
        | some (n, after) => some ([n], after)
        | none => some (['u'.toNat], rest)
  | c :: rest =>
      if d.isStrict && c.isDigit then
        if c = '0' && !rest.head?.any Char.isDigit then some ([0], rest) else none
      else if isOctalDigit c then
        let (code, after) := octalCode (c :: rest)
        some ([code], after)
      else (itself? d inClass c).map fun codes => (codes, rest)

def shorthand? : Char → Option ClassItem
  | 'd' => some (.shorthand .digit false)
  | 'D' => some (.shorthand .digit true)
  | 's' => some (.shorthand .space false)
  | 'S' => some (.shorthand .space true)
  | 'w' => some (.shorthand .word false)
  | 'W' => some (.shorthand .word true)
  | _ => none

/-- The number of the group whose text the digits behind a backslash ask for,
    and what follows. -/
def groupNumber? (d : Dialect) (cs : List Char) : Option (Nat × List Char) :=
  match Number.digitsValue? 10 (cs.takeWhile Char.isDigit) with
  | some n =>
      if cs.head? ≠ some '0' && 1 ≤ n && n ≤ d.groups.length then
        some (n, cs.dropWhile Char.isDigit)
      else none
  | none => none

/-- The number of the group whose name stands between angles, and what
    follows. -/
def groupByName? (d : Dialect) : List Char → Option (Nat × List Char)
  | '<' :: rest =>
      match rest.dropWhile (· ≠ '>') with
      | _ :: after => (d.numberOf? (rest.takeWhile (· ≠ '>'))).map fun n => (n, after)
      | [] => none
  | _ => none

end JobMatrix.Pattern
