import JobMatrix.Pattern.Class

/-! # Reading regular expressions

A regular expression is a choice between sequences of terms.  A term is an
assertion, or an atom or group with an optional count of repetitions.
Whatever breaks the rules makes the whole expression invalid, and so does what
has no reading here: properties of characters and operations on classes.
-/

namespace JobMatrix.Pattern

/-- How often an atom is repeated. -/
structure Quantifier where
  least : Nat
  most : Option Nat
  greedy : Bool
  deriving Repr, DecidableEq

/-- The bounds behind an opening brace, and what follows the closing one. -/
def bounds? (cs : List Char) : Option (Nat × Option Nat × List Char) :=
  let digits := cs.takeWhile Char.isDigit
  if digits.isEmpty then none
  else do
    let least ← Number.digitsValue? 10 digits
    match cs.dropWhile Char.isDigit with
    | '\x7d' :: rest => return (least, some least, rest)
    | ',' :: '\x7d' :: rest => return (least, none, rest)
    | ',' :: more =>
        let digits := more.takeWhile Char.isDigit
        if digits.isEmpty then none
        let most ← Number.digitsValue? 10 digits
        match more.dropWhile Char.isDigit with
        | '\x7d' :: rest => return (least, some most, rest)
        | _ => none
    | _ => none

/-- Whether a question mark makes a repetition lazy, and what follows. -/
def greed : List Char → Bool × List Char
  | '?' :: rest => (false, rest)
  | cs => (true, cs)

/-- The quantifier at the start of a text, if there is one, and what follows;
    nothing if there is an invalid one. -/
def quantifier? (d : Dialect) (cs : List Char) : Option (Option Quantifier × List Char) :=
  let found (least : Nat) (most : Option Nat) (rest : List Char) :=
    let (greedy, rest) := greed rest
    some (some ⟨least, most, greedy⟩, rest)
  match cs with
  | '*' :: rest => found 0 none rest
  | '+' :: rest => found 1 none rest
  | '?' :: rest => found 0 (some 1) rest
  | '\x7b' :: rest =>
      match bounds? rest with
      | some (least, most, rest) =>
          if most.any (· < least) then none else found least most rest
      | none => if d.isStrict then none else some (none, cs)
  | _ => some (none, cs)

/-- An atom with the quantifier that follows it, if there is one; the atom
    holds the groups from `first` up to `next`. -/
def quantified? (d : Dialect) (atom : Regex) (first next : Nat) (cs : List Char) :
    Option (Regex × List Char) :=
  (quantifier? d cs).map fun
    | (some q, rest) => (.loop atom q.least q.most q.greedy first next, rest)
    | (none, rest) => (atom, rest)

/-- Symbols one after another, of which a quantifier repeats the last. -/
def symbols? (d : Dialect) (group : Nat) (cs : List Char) : List Nat → Option (Regex × List Char)
  | [] => some (.nothing, cs)
  | [n] => quantified? d (.symbol n) group group cs
  | n :: more => (symbols? d group cs more).map fun (r, rest) => (.both (.symbol n) r, rest)

/-- The atom or assertion that an escape stands for, with its quantifier. -/
def escape? (d : Dialect) (group : Nat) (cs : List Char) : Option (Regex × List Char) :=
  match cs with
  | [] => none
  | 'b' :: rest => some (.boundary false, rest)
  | 'B' :: rest => some (.boundary true, rest)
  | c :: rest =>
      match shorthand? c with
      | some item => quantified? d (.set false [item]) group group rest
      | none =>
          match groupNumber? d cs with
          | some (n, rest) => quantified? d (.again n) group group rest
          | none =>
              if c = 'k' && (d.isStrict || d.hasNames) then
                (groupByName? d rest).bind fun (n, rest) =>
                  quantified? d (.again n) group group rest
              else
                (symbolEscape? d false cs).bind fun (codes, rest) => symbols? d group rest codes

/-- The term that a text without a group in front starts with. -/
def simpleTerm? (d : Dialect) (group : Nat) : List Char → Option (Regex × List Char)
  | [] => none
  | '^' :: rest => some (.start, rest)
  | '$' :: rest => some (.finish, rest)
  | '.' :: rest => quantified? d .any group group rest
  | '[' :: rest =>
      (class? d rest).bind fun (r, rest) => quantified? d r group group rest
  | '\\' :: rest => escape? d group rest
  | '*' :: _ => none
  | '+' :: _ => none
  | '?' :: _ => none
  | '\x7b' :: rest =>
      if d.isStrict || (bounds? rest).isSome then none
      else symbols? d group rest ['\x7b'.toNat]
  | c :: rest =>
      if d.isStrict && (c = '\x7d' || c = ']') then none
      else symbols? d group rest (d.codes c)

/-- The kinds of groups. -/
inductive GroupKind
  | plain
  | remembered
  | look (ahead negated : Bool)
  deriving Repr, DecidableEq

/-- The kind of group that opens behind a parenthesis, and what follows. -/
def groupKind? : List Char → Option (GroupKind × List Char)
  | '?' :: ':' :: rest => some (.plain, rest)
  | '?' :: '=' :: rest => some (.look true false, rest)
  | '?' :: '!' :: rest => some (.look true true, rest)
  | '?' :: '<' :: '=' :: rest => some (.look false false, rest)
  | '?' :: '<' :: '!' :: rest => some (.look false true, rest)
  | '?' :: '<' :: rest =>
      if isGroupName (rest.takeWhile (· ≠ '>')) then
        match rest.dropWhile (· ≠ '>') with
        | _ :: after => some (.remembered, after)
        | [] => none
      else none
  | '?' :: _ => none
  | cs => some (.remembered, cs)

/-- A group with its quantifier.  A look ahead can be repeated unless the
    dialect is strict, a look behind never. -/
def group? (d : Dialect) (kind : GroupKind) (body : Regex) (first next : Nat)
    (cs : List Char) : Option (Regex × List Char) :=
  match kind with
  | .plain => quantified? d body first next cs
  | .remembered => quantified? d (.group first body) first next cs
  | .look ahead negated =>
      if ahead && !d.isStrict then quantified? d (.look ahead negated body) first next cs
      else some (.look ahead negated body, cs)

mutual

/-- A choice, the number of the next group, and what follows. -/
def choice? (d : Dialect) : Nat → Nat → List Char → Option (Regex × Nat × List Char)
  | 0, _, _ => none
  | fuel + 1, group, cs =>
      match sequence? d fuel group cs with
      | some (first, group, '|' :: rest) =>
          match choice? d fuel group rest with
          | some (second, group, rest) => some (.either first second, group, rest)
          | none => none
      | other => other

/-- A sequence of terms, the number of the next group, and what follows. -/
def sequence? (d : Dialect) : Nat → Nat → List Char → Option (Regex × Nat × List Char)
  | 0, _, _ => none
  | _ + 1, group, [] => some (.nothing, group, [])
  | _ + 1, group, '|' :: rest => some (.nothing, group, '|' :: rest)
  | _ + 1, group, ')' :: rest => some (.nothing, group, ')' :: rest)
  | fuel + 1, group, cs =>
      match term? d fuel group cs with
      | some (part, group, rest) =>
          match sequence? d fuel group rest with
          | some (more, group, rest) => some (.both part more, group, rest)
          | none => none
      | none => none

/-- A term, the number of the next group, and what follows. -/
def term? (d : Dialect) : Nat → Nat → List Char → Option (Regex × Nat × List Char)
  | 0, _, _ => none
  | fuel + 1, group, '(' :: rest =>
      match groupKind? rest with
      | some (kind, rest) =>
          match choice? d fuel (if kind = .remembered then group + 1 else group) rest with
          | some (body, next, ')' :: rest) =>
              (group? d kind body group next rest).map fun (r, rest) => (r, next, rest)
          | _ => none
      | none => none
  | _ + 1, group, cs => (simpleTerm? d group cs).map fun (r, rest) => (r, group, rest)

end

/-- Whether no two groups have the same name. -/
def Dialect.isDistinct (d : Dialect) : Bool :=
  d.names.eraseDups.length = d.names.length

/-- The regular expression that a text writes, if it is valid. -/
def Regex.parse? (flags : Flags) (source : String) : Option Regex :=
  let cs := source.toList
  let d := Dialect.of flags cs
  if d.isDistinct then
    match choice? d (4 * (cs.length + 1)) 1 cs with
    | some (r, _, []) => some r
    | _ => none
  else none

end JobMatrix.Pattern
