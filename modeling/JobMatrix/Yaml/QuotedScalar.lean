import JobMatrix.Yaml.Cursor
import JobMatrix.Number.Decimal
import JobMatrix.Text.Units

/-! # Quoted scalars

Between single quotes only the quote itself is written specially, twice.
Between double quotes a backslash starts an escape.  Both go on over lines
that are indented enough, and blanks around a line break fold: the two quoted
styles of YAML 1.2.
-/

namespace JobMatrix.Yaml

/-- The text up to a closing single quote, and what follows it if it stands on
    the line. -/
def singleLine : Line → Line × Option Line
  | [] => ([], none)
  | '\x27' :: '\x27' :: rest =>
      let (text, after) := singleLine rest
      ('\x27' :: text, after)
  | '\x27' :: rest => ([], some rest)
  | c :: rest =>
      let (text, after) := singleLine rest
      (c :: text, after)

/-- Goes on with single-quoted text over the lines that follow. -/
def singleMore (floor : Nat) (text : List Char) (blanks : Nat) :
    List Line → Option (List Char × Cursor)
  | [] => none
  | l :: rest =>
      if isEmptyLine l then singleMore floor text (blanks + 1) rest
      else if indentOf l < floor then none
      else match singleLine (dropSpaces l) with
        | (more, some after) =>
            some (text ++ joint blanks ++ more, ⟨after, l.length - after.length, rest⟩)
        | (more, none) =>
            let more := dropTrailing more
            if more.isEmpty then singleMore floor text (blanks + 1) rest
            else singleMore floor (text ++ joint blanks ++ more) 0 rest

def readSingle? (floor : Nat) (c : Cursor) : Option (List Char × Cursor) :=
  match singleLine c.line with
  | (text, some after) => some (text, c.before after)
  | (text, none) => singleMore floor (dropTrailing text) 0 c.lines

/-- A unit of double-quoted text; blanks that are not escaped fold at line
    breaks. -/
structure QuotedUnit where
  code : Nat
  folds : Bool
  deriving Repr, DecidableEq

def plainUnits (c : Char) : List QuotedUnit :=
  (Text.charUnits c).map fun code => ⟨code, isSpace c⟩

def shortEscape? : Char → Option Nat
  | '0' => some 0
  | 'a' => some 7
  | 'b' => some 8
  | 't' | '\t' => some 9
  | 'n' => some 10
  | 'v' => some 11
  | 'f' => some 12
  | 'r' => some 13
  | 'e' => some 0x1b
  | ' ' => some 0x20
  | '"' => some 0x22
  | '/' => some 0x2f
  | '\\' => some 0x5c
  | 'N' => some 0x85
  | '_' => some 0xa0
  | 'L' => some 0x2028
  | 'P' => some 0x2029
  | _ => none

/-- The units of a code that an escape writes: one up to 65535, and otherwise
    a pair. -/
def codeUnits (code : Nat) : List QuotedUnit :=
  if code < 0x10000 then [⟨code, false⟩]
  else (Text.charUnits (Char.ofNat code)).map fun unit => ⟨unit, false⟩

/-- How double-quoted text goes on after a line. -/
inductive LineEnd
  /-- It is closed, and this follows. -/
  | closed (after : Line)
  /-- It goes on behind an escaped line break, which counts for nothing. -/
  | escaped
  /-- It goes on behind a line break. -/
  | open
  deriving Repr

def escapeLength? : Char → Option Nat
  | 'x' => some 2
  | 'u' => some 4
  | 'U' => some 8
  | _ => none

/-- The units up to a closing double quote or the end of the line.  A numeric
    escape has a fixed count of hexadecimal digits. -/
def doubleLine : Nat → Line → Option (List QuotedUnit × LineEnd)
  | 0, _ => none
  | _ + 1, [] => some ([], .open)
  | _ + 1, '"' :: rest => some ([], .closed rest)
  | _ + 1, ['\\'] => some ([], .escaped)
  | fuel + 1, '\\' :: c :: rest =>
      match shortEscape? c, escapeLength? c with
      | some code, _ => do
          let (units, ending) ← doubleLine fuel rest
          return (⟨code, false⟩ :: units, ending)
      | none, some n => do
          let digits := rest.take n
          if digits.length < n then none
          let code ← Number.digitsValue? 16 digits
          if 0x10ffff < code then none
          let (units, ending) ← doubleLine fuel (rest.drop n)
          return (codeUnits code ++ units, ending)
      | none, none => none
  | fuel + 1, c :: rest => do
      let (units, ending) ← doubleLine fuel rest
      return (plainUnits c ++ units, ending)

def dropFolding (units : List QuotedUnit) : List QuotedUnit :=
  (units.reverse.dropWhile (·.folds)).reverse

/-- What stands between two lines of double-quoted text; nothing behind an
    escaped line break. -/
def unitJoint : Option Nat → List QuotedUnit
  | none => []
  | some blanks => (joint blanks).flatMap fun c => (plainUnits c).map fun u => { u with folds := false }

/-- Goes on with double-quoted text over the lines that follow; `blanks` is
    missing behind an escaped line break. -/
def doubleMore (floor : Nat) (text : List QuotedUnit) (blanks : Option Nat) :
    List Line → Option (List QuotedUnit × Cursor)
  | [] => none
  | l :: rest =>
      let empty : Option Nat := match blanks with
        | none => some 0
        | some n => some (n + 1)
      if isEmptyLine l then doubleMore floor text empty rest
      else if indentOf l < floor then none
      else
        let body := dropSpaces l
        match doubleLine (body.length + 1) body with
        | none => none
        | some (more, .closed after) =>
            some (text ++ unitJoint blanks ++ more, ⟨after, l.length - after.length, rest⟩)
        | some (more, .escaped) => doubleMore floor (text ++ unitJoint blanks ++ more) none rest
        | some (more, .open) =>
            let more := dropFolding more
            if more.isEmpty then doubleMore floor text empty rest
            else doubleMore floor (text ++ unitJoint blanks ++ more) (some 0) rest

def readDouble? (floor : Nat) (c : Cursor) : Option (List Char × Cursor) := do
  let (units, stop) ← match ← doubleLine (c.line.length + 1) c.line with
    | (units, .closed after) => some (units, c.before after)
    | (units, .escaped) => doubleMore floor units none c.lines
    | (units, .open) => doubleMore floor (dropFolding units) (some 0) c.lines
  return (Text.ofUnits (units.map (·.code)), stop)

end JobMatrix.Yaml
