import JobMatrix.Expr.Basic
import JobMatrix.Expr.Lexer
import JobMatrix.Text.Lowercase

/-! # From tokens to a tree

The operators bind, from loosest to tightest: or, and, equality, order, not,
and then property access and calls.  Operators of one level group to the
left.  Every reader takes at least one token, so the readers end.
-/

namespace JobMatrix.Expr

/-- What a reader found, with the tokens it left: fewer than a bound. -/
structure Parsed (α : Type) (bound : Nat) where
  value : α
  rest : List Token
  fewer : rest.length < bound

/-- The levels of operators with two operands. -/
inductive Level
  | or
  | and
  | equality
  | order
  deriving Repr, DecidableEq

namespace Level

/-- The next tighter level, if it has two operands too. -/
def tighter? : Level → Option Level
  | or => some and
  | and => some equality
  | equality => some order
  | order => none

def rank : Level → Nat
  | or => 3
  | and => 2
  | equality => 1
  | order => 0

theorem rank_lt_of_tighter? {level next : Level} (h : level.tighter? = some next) :
    next.rank < level.rank := by
  cases level <;> simp [tighter?] at h <;> subst h <;> decide

def combine? (level : Level) : Operator → Option (Expr → Expr → Expr)
  | .or => if level = or then some (.logical .or) else none
  | .and => if level = and then some (.logical .and) else none
  | .equal => if level = equality then some (.comparison .equal) else none
  | .notEqual => if level = equality then some (.comparison .notEqual) else none
  | .lessEqual => if level = order then some (.comparison .lessEqual) else none
  | .greaterEqual => if level = order then some (.comparison .greaterEqual) else none
  | .less => if level = order then some (.comparison .less) else none
  | .greater => if level = order then some (.comparison .greater) else none
  | .not => none

end Level

/-- The operator of a level at the front of some tokens, as the tree it
    builds, with the tokens behind it. -/
def operatorOf? (level : Level) : List Token → Option ((Expr → Expr → Expr) × List Token)
  | ⟨.operator op, _⟩ :: rest => (level.combine? op).map fun combine => (combine, rest)
  | _ => none

theorem length_of_operatorOf? {level : Level} {ts rest : List Token} {combine : Expr → Expr → Expr}
    (h : operatorOf? level ts = some (combine, rest)) : rest.length < ts.length := by
  unfold operatorOf? at h
  split at h
  · simp only [Option.map_eq_some_iff, Prod.mk.injEq] at h
    obtain ⟨_, _, _, rfl⟩ := h
    simp
  · cases h

/-- The lexeme that a message names; the end has none. -/
def found (ts : List Token) : Option String :=
  match ts with
  | [] | ⟨.finish, _⟩ :: _ => none
  | token :: _ => some token.lexeme.value

def offset (ts : List Token) : Nat :=
  match ts with
  | [] => 0
  | token :: _ => token.position

def expect (mark : Punctuator) : (ts : List Token) → Except Cause (Parsed Unit ts.length)
  | [] => .error (.expected mark.text 0 none)
  | ⟨lexeme, position⟩ :: rest =>
      if lexeme = .punctuator mark then .ok ⟨(), rest, Nat.lt_succ_self _⟩
      else .error (.expected mark.text position (found (⟨lexeme, position⟩ :: rest)))

/-- The tree of a name that is not called: a literal if it is a keyword, else
    a context. -/
def ofName (name : String) : Expr :=
  match Text.toLower name with
  | "true" => .literal (.bool true)
  | "false" => .literal (.bool false)
  | "null" => .literal .null
  | lower => .context lower

mutual

/-- Reads operands of a level joined by its operators. -/
def parseLevel (level : Level) (ts : List Token) : Except Cause (Parsed Expr ts.length) := do
  let ⟨first, rest, h⟩ ← parseOperand level ts
  let ⟨whole, rest, h'⟩ ← parseTail level first rest
  return ⟨whole, rest, by omega⟩
termination_by (ts.length, 2 * level.rank + 3)

def parseOperand (level : Level) (ts : List Token) : Except Cause (Parsed Expr ts.length) :=
  match h : level.tighter? with
  | some next =>
      have := Level.rank_lt_of_tighter? h
      parseLevel next ts
  | none => parseUnary ts
termination_by (ts.length, 2 * level.rank + 2)

/-- Reads further operands of a level behind a first one. -/
def parseTail (level : Level) (left : Expr) (ts : List Token) :
    Except Cause (Parsed Expr (ts.length + 1)) :=
  match h : operatorOf? level ts with
  | some (combine, rest) => do
      have := length_of_operatorOf? h
      let ⟨right, rest, h'⟩ ← parseOperand level rest
      let ⟨whole, rest, h''⟩ ← parseTail level (combine left right) rest
      return ⟨whole, rest, by omega⟩
  | none => return ⟨left, ts, Nat.lt_succ_self _⟩
termination_by (ts.length, 0)

/-- Reads negations in front of an operand. -/
def parseUnary (ts : List Token) : Except Cause (Parsed Expr ts.length) :=
  match ts with
  | ⟨.operator .not, _⟩ :: rest => do
      let ⟨operand, rest, h⟩ ← parseUnary rest
      return ⟨.not operand, rest, by simp only [List.length_cons]; omega⟩
  | ts => do
      let ⟨first, rest, h⟩ ← parsePrimary ts
      let ⟨whole, rest, h'⟩ ← parsePostfix first rest
      return ⟨whole, rest, by omega⟩
termination_by (ts.length, 1)

/-- Reads property accesses behind an object. -/
def parsePostfix (object : Expr) (ts : List Token) :
    Except Cause (Parsed Expr (ts.length + 1)) :=
  match ts with
  | ⟨.punctuator .dot, _⟩ :: rest =>
      match rest with
      | ⟨.identifier name, _⟩ :: rest => do
          let ⟨whole, rest, h⟩ ← parsePostfix (.index object (.literal (.string name))) rest
          return ⟨whole, rest, by simp only [List.length_cons]; omega⟩
      | rest => throw (.expectedProperty (offset rest))
  | ⟨.punctuator .openBracket, _⟩ :: rest => do
      let ⟨key, rest, h⟩ ← parseLevel .or rest
      let ⟨_, rest, h'⟩ ← expect .closeBracket rest
      let ⟨whole, rest, h''⟩ ← parsePostfix (.index object key) rest
      return ⟨whole, rest, by simp only [List.length_cons]; omega⟩
  | ts => return ⟨object, ts, Nat.lt_succ_self _⟩
termination_by (ts.length, 0)

/-- Reads a literal, a name, a call, or an expression in parentheses. -/
def parsePrimary (ts : List Token) : Except Cause (Parsed Expr ts.length) :=
  match ts with
  | [] => throw .unexpectedEnd
  | ⟨.finish, _⟩ :: _ => throw .unexpectedEnd
  | ⟨.identifier name, _⟩ :: rest =>
      match rest with
      | ⟨.punctuator .openParen, _⟩ :: rest => do
          let ⟨parameters, rest, h⟩ ← parseArguments rest
          return ⟨.call (Text.toLower name) parameters, rest, by
            simp only [List.length_cons]; omega⟩
      | rest => return ⟨ofName name, rest, by simp⟩
  | ⟨.punctuator .openParen, _⟩ :: rest => do
      let ⟨inner, rest, h⟩ ← parseLevel .or rest
      let ⟨_, rest, h'⟩ ← expect .closeParen rest
      return ⟨inner, rest, by simp only [List.length_cons]; omega⟩
  | ⟨.punctuator mark, position⟩ :: _ => throw (.unexpected mark.text position)
  | ⟨.string value, _⟩ :: rest => return ⟨.literal (.string value), rest, by simp⟩
  | ⟨.number text, _⟩ :: rest => return ⟨.literal (.number (Number.ofText text)), rest, by simp⟩
  | ⟨.operator op, position⟩ :: _ => throw (.unexpected op.text position)
termination_by (ts.length, 0)

/-- Reads the arguments of a call behind its opening parenthesis. -/
def parseArguments (ts : List Token) : Except Cause (Parsed (List Expr) ts.length) :=
  match ts with
  | ⟨.punctuator .closeParen, _⟩ :: rest => return ⟨[], rest, by simp⟩
  | ts => parseArgumentList ts
termination_by (ts.length, 5 + 2 * Level.or.rank)

/-- Reads arguments separated by commas up to the closing parenthesis. -/
def parseArgumentList (ts : List Token) : Except Cause (Parsed (List Expr) ts.length) := do
  let ⟨first, rest, h⟩ ← parseLevel .or ts
  match rest, h with
  | ⟨.punctuator .comma, _⟩ :: rest, h => do
      have : rest.length < ts.length := Nat.lt_of_succ_lt h
      let ⟨others, rest, h'⟩ ← parseArgumentList rest
      return ⟨first :: others, rest, by omega⟩
  | rest, h => do
      let ⟨_, rest, h'⟩ ← expect .closeParen rest
      return ⟨[first], rest, by omega⟩
termination_by (ts.length, 4 + 2 * Level.or.rank)

end

def ofTokens (ts : List Token) : Except Cause Expr := do
  let ⟨root, rest, _⟩ ← parseLevel .or ts
  match rest with
  | [] | ⟨.finish, _⟩ :: _ => return root
  | token :: _ => throw (.unexpected token.lexeme.value token.position)

def parse (expression : String) : Except Error Expr :=
  match (do ofTokens (← lex expression.toList) : Except Cause Expr) with
  | .ok root => .ok root
  | .error cause => .error ⟨expression, cause⟩

end JobMatrix.Expr
