import JobMatrix.Proofs.Success
import JobMatrix.Proofs.Expr.Reading

/-! # The calls that readers make

The readers of the parser call each other.  A call is a reader with the tokens
that are left where it starts, so the token it looks at is the first of them.
What a reader does is told here once more with the calls it makes as questions;
the parser answers them, and no reader asks anything but the calls listed for
it.  Every call has fewer tokens left than its caller, or stands on a tighter
level, so the calls come to an end on every row of tokens.
-/

namespace JobMatrix.Expr

/-- The readers, each with what it goes on behind. -/
inductive Reader
  | level (level : Level)
  | operand (level : Level)
  /-- Operators behind an operand. -/
  | tail (level : Level) (left : Expr)
  /-- Negations, or an object with the accesses behind it. -/
  | unary
  /-- Property accesses behind an object. -/
  | properties (object : Expr)
  /-- The name behind a dot. -/
  | propertyName
  | primary
  /-- A name that may turn out to be called. -/
  | behindName (name : String)
  | arguments
  | argumentList
  /-- A comma or the closing parenthesis behind an argument. -/
  | behindArgument (first : Expr)
  /-- A punctuator that must stand there. -/
  | mark (mark : Punctuator)

@[reducible]
def Reader.Value : Reader → Type
  | .propertyName => String
  | .arguments | .argumentList | .behindArgument _ => List Expr
  | .mark _ => Unit
  | _ => Expr

/-- A call of a reader, with the tokens that are left. -/
structure Call where
  reader : Reader
  tokens : List Token

/-- What a call comes to: a value and the tokens left behind it, or an error. -/
abbrev Call.Result (call : Call) : Type :=
  Except Cause (call.reader.Value × List Token)

/-- What a reader found and left, without the bound it carries. -/
def found? {α : Type} {bound : Nat} (r : Except Cause (Parsed α bound)) :
    Except Cause (α × List Token) :=
  r.map fun parsed => (parsed.value, parsed.rest)

/-! ## Readers that are parts of others -/

def readPropertyName (ts : List Token) : Except Cause (String × List Token) :=
  match ts with
  | ⟨.identifier name, _⟩ :: rest => .ok (name, rest)
  | ts => .error (.expectedProperty (offset ts))

/-- What becomes of a name: it is called, or stands alone. -/
def readBehindName (name : String) (ts : List Token) : Except Cause (Expr × List Token) :=
  match ts with
  | ⟨.punctuator .openParen, _⟩ :: rest => do
      let (parameters, rest) ← found? (parseArguments rest)
      return (.call (Text.toLower name) parameters, rest)
  | ts => .ok (ofName name, ts)

/-- What stands behind an argument: another one, or the end of the call. -/
def readBehindArgument (first : Expr) (ts : List Token) :
    Except Cause (List Expr × List Token) :=
  match ts with
  | ⟨.punctuator .comma, _⟩ :: rest => do
      let (others, rest) ← found? (parseArgumentList rest)
      return (first :: others, rest)
  | ts => do
      let (_, rest) ← found? (expect .closeParen ts)
      return ([first], rest)

section Parts

variable {ts : List Token}

theorem readPropertyName_of_front (h : ∀ name, front ts ≠ some (.identifier name)) :
    readPropertyName ts = .error (.expectedProperty (offset ts)) := by
  unfold readPropertyName
  split
  · next name _ _ => exact absurd rfl (h name)
  · rfl

theorem readBehindName_of_front (name : String) (h : front ts ≠ some (.punctuator .openParen)) :
    readBehindName name ts = .ok (ofName name, ts) := by
  unfold readBehindName
  split
  · exact absurd rfl h
  · rfl

theorem readBehindArgument_of_front (first : Expr) (h : front ts ≠ some (.punctuator .comma)) :
    readBehindArgument first ts =
      found? (expect .closeParen ts) >>= fun closing => .ok ([first], closing.2) := by
  unfold readBehindArgument
  split
  · exact absurd rfl h
  · rfl

end Parts

/-! ## Calls and their answers -/

namespace Call

def run : (call : Call) → call.Result
  | ⟨.level level, ts⟩ => found? (parseLevel level ts)
  | ⟨.operand level, ts⟩ => found? (parseOperand level ts)
  | ⟨.tail level left, ts⟩ => found? (parseTail level left ts)
  | ⟨.unary, ts⟩ => found? (parseUnary ts)
  | ⟨.properties object, ts⟩ => found? (parsePostfix object ts)
  | ⟨.propertyName, ts⟩ => readPropertyName ts
  | ⟨.primary, ts⟩ => found? (parsePrimary ts)
  | ⟨.behindName name, ts⟩ => readBehindName name ts
  | ⟨.arguments, ts⟩ => found? (parseArguments ts)
  | ⟨.argumentList, ts⟩ => found? (parseArgumentList ts)
  | ⟨.behindArgument first, ts⟩ => readBehindArgument first ts
  | ⟨.mark mark, ts⟩ => found? (expect mark ts)

/-- What a reader makes of its tokens and of the answers to the calls it makes.
    It looks at no token but the first. -/
def body (ask : (call : Call) → call.Result) : (call : Call) → call.Result
  | ⟨.level level, ts⟩ => do
      let (first, rest) ← ask ⟨.operand level, ts⟩
      ask ⟨.tail level first, rest⟩
  | ⟨.operand level, ts⟩ =>
      match level.tighter? with
      | some next => ask ⟨.level next, ts⟩
      | none => ask ⟨.unary, ts⟩
  | ⟨.tail level left, ts⟩ =>
      match operatorOf? level ts with
      | some (combine, rest) => do
          let (right, rest) ← ask ⟨.operand level, rest⟩
          ask ⟨.tail level (combine left right), rest⟩
      | none => .ok (left, ts)
  | ⟨.unary, ts⟩ =>
      match ts with
      | ⟨.operator .not, _⟩ :: rest => do
          let (operand, rest) ← ask ⟨.unary, rest⟩
          return (.not operand, rest)
      | ts => do
          let (first, rest) ← ask ⟨.primary, ts⟩
          ask ⟨.properties first, rest⟩
  | ⟨.properties object, ts⟩ =>
      match ts with
      | ⟨.punctuator .dot, _⟩ :: rest => do
          let (name, rest) ← ask ⟨.propertyName, rest⟩
          ask ⟨.properties (.index object (.literal (.string name))), rest⟩
      | ⟨.punctuator .openBracket, _⟩ :: rest => do
          let (key, rest) ← ask ⟨.level .or, rest⟩
          let (_, rest) ← ask ⟨.mark .closeBracket, rest⟩
          ask ⟨.properties (.index object key), rest⟩
      | ts => .ok (object, ts)
  | ⟨.propertyName, ts⟩ => readPropertyName ts
  | ⟨.primary, ts⟩ =>
      match ts with
      | [] => .error .unexpectedEnd
      | ⟨.finish, _⟩ :: _ => .error .unexpectedEnd
      | ⟨.identifier name, _⟩ :: rest => ask ⟨.behindName name, rest⟩
      | ⟨.punctuator .openParen, _⟩ :: rest => do
          let (inner, rest) ← ask ⟨.level .or, rest⟩
          let (_, rest) ← ask ⟨.mark .closeParen, rest⟩
          return (inner, rest)
      | ⟨.punctuator mark, position⟩ :: _ => .error (.unexpected mark.text position)
      | ⟨.string value, _⟩ :: rest => .ok (.literal (.string value), rest)
      | ⟨.number text, _⟩ :: rest => .ok (.literal (.number (Number.ofText text)), rest)
      | ⟨.operator op, position⟩ :: _ => .error (.unexpected op.text position)
  | ⟨.behindName name, ts⟩ =>
      match ts with
      | ⟨.punctuator .openParen, _⟩ :: rest => do
          let (parameters, rest) ← ask ⟨.arguments, rest⟩
          return (.call (Text.toLower name) parameters, rest)
      | ts => .ok (ofName name, ts)
  | ⟨.arguments, ts⟩ =>
      match ts with
      | ⟨.punctuator .closeParen, _⟩ :: rest => .ok ([], rest)
      | ts => ask ⟨.argumentList, ts⟩
  | ⟨.argumentList, ts⟩ => do
      let (first, rest) ← ask ⟨.level .or, ts⟩
      ask ⟨.behindArgument first, rest⟩
  | ⟨.behindArgument first, ts⟩ =>
      match ts with
      | ⟨.punctuator .comma, _⟩ :: rest => do
          let (others, rest) ← ask ⟨.argumentList, rest⟩
          return (first :: others, rest)
      | ts => do
          let (_, rest) ← ask ⟨.mark .closeParen, ts⟩
          return ([first], rest)
  | ⟨.mark mark, ts⟩ => found? (expect mark ts)

end Call

section Found

variable {α β : Type} {bound bound' : Nat}

theorem found?_bind {r : Except Cause (Parsed α bound)}
    {next : Parsed α bound → Except Cause (Parsed β bound')}
    {next' : α × List Token → Except Cause (β × List Token)}
    (same : ∀ parsed, found? (next parsed) = next' (parsed.value, parsed.rest)) :
    found? (r >>= next) = found? r >>= next' := by
  cases r with
  | error cause => rfl
  | ok parsed => exact same parsed

/-- A reader that ends with another one finds what that one does. -/
theorem found?_bind_pure {r : Except Cause (Parsed α bound)}
    {next : Parsed α bound → Except Cause (Parsed α bound')}
    (same : ∀ parsed, found? (next parsed) = .ok (parsed.value, parsed.rest)) :
    found? (r >>= next) = found? r := by
  cases r with
  | error cause => rfl
  | ok parsed => exact same parsed

end Found

namespace Call

/-- The parser does what the readers do when it answers their calls. -/
theorem run_eq_body (call : Call) : call.run = call.body run := by
  obtain ⟨reader, ts⟩ := call
  cases reader with
  | level level =>
      change found? (parseLevel level ts) = _
      rw [parseLevel]
      refine found?_bind fun parsed => ?_
      exact found?_bind_pure fun _ => rfl
  | operand level =>
      cases tighter : level.tighter? with
      | some next =>
          simp only [body, tighter]
          exact congrArg found? (parseOperand_of_tighter? tighter ts)
      | none =>
          simp only [body, tighter]
          obtain rfl := Level.eq_order_of_tighter? tighter
          exact congrArg found? (parseOperand_order ts)
  | tail level left =>
      change found? (parseTail level left ts) = _
      rw [parseTail]
      split
      · next combine rest operator =>
          simp only [body, operator]
          refine found?_bind fun parsed => ?_
          exact found?_bind_pure fun _ => rfl
      · next operator =>
          simp only [body, operator]
          rfl
  | unary =>
      change found? (parseUnary ts) = _
      rw [parseUnary.eq_def]
      split
      · exact found?_bind fun _ => rfl
      · next noNot =>
          rw [body.eq_def]
          dsimp only
          split
          · next p rest => exact absurd rfl (noNot p rest)
          · refine found?_bind fun parsed => ?_
            exact found?_bind_pure fun _ => rfl
  | properties object =>
      change found? (parsePostfix object ts) = _
      rw [parsePostfix.eq_def]
      split
      · split
        · exact found?_bind_pure fun _ => rfl
        · next noName =>
            have missing := readPropertyName_of_front fun name => front_ne (noName name)
            change _ = readPropertyName _ >>= _
            rw [missing]
            rfl
      · refine found?_bind fun parsed => ?_
        refine found?_bind fun closing => ?_
        exact found?_bind_pure fun _ => rfl
      · next noDot noBracket =>
          rw [body.eq_def]
          dsimp only
          split
          · next p rest => exact absurd rfl (noDot p rest)
          · next p rest => exact absurd rfl (noBracket p rest)
          · rfl
  | propertyName => rfl
  | primary =>
      change found? (parsePrimary ts) = _
      rw [parsePrimary.eq_def]
      rcases ts with _ | ⟨⟨lexeme, p⟩, behind⟩
      · rfl
      · cases lexeme with
        | identifier name =>
            change _ = readBehindName name behind
            dsimp only
            split
            · exact found?_bind fun _ => rfl
            · next noParen => exact (readBehindName_of_front name (front_ne noParen)).symm
        | punctuator mark =>
            cases mark with
            | openParen =>
                refine found?_bind fun parsed => ?_
                exact found?_bind fun _ => rfl
            | _ => rfl
        | _ => rfl
  | behindName name => rfl
  | arguments =>
      change found? (parseArguments ts) = _
      rw [parseArguments.eq_def]
      split
      · rfl
      · next noClose =>
          rw [body.eq_def]
          dsimp only
          split
          · next p rest => exact absurd rfl (noClose p rest)
          · rfl
  | argumentList =>
      change found? (parseArgumentList ts) = _
      rw [parseArgumentList.eq_def]
      refine found?_bind fun parsed => ?_
      obtain ⟨first, rest, fewer⟩ := parsed
      change _ = readBehindArgument first rest
      dsimp only
      split
      · exact found?_bind fun _ => rfl
      · next noComma =>
          rw [readBehindArgument_of_front first (front_ne fun p behind same => ?_)]
          · exact found?_bind fun _ => rfl
          · subst same
            exact noComma p behind fewer rfl HEq.rfl
  | behindArgument first => rfl
  | mark mark => rfl

end Call

/-- One reader calls another, with what has been found so far. -/
inductive Calls : Call → Call → Prop
  | operand {level ts} : Calls ⟨.level level, ts⟩ ⟨.operand level, ts⟩
  | tail {level ts first rest} : Call.run ⟨.operand level, ts⟩ = .ok (first, rest) →
      Calls ⟨.level level, ts⟩ ⟨.tail level first, rest⟩
  | tighter {level next ts} : level.tighter? = some next →
      Calls ⟨.operand level, ts⟩ ⟨.level next, ts⟩
  | unary {level ts} : level.tighter? = none → Calls ⟨.operand level, ts⟩ ⟨.unary, ts⟩
  | right {level left ts combine rest} : operatorOf? level ts = some (combine, rest) →
      Calls ⟨.tail level left, ts⟩ ⟨.operand level, rest⟩
  | further {level left ts combine behind right rest} :
      operatorOf? level ts = some (combine, behind) →
      Call.run ⟨.operand level, behind⟩ = .ok (right, rest) →
      Calls ⟨.tail level left, ts⟩ ⟨.tail level (combine left right), rest⟩
  | negated {p rest} : Calls ⟨.unary, ⟨.operator .not, p⟩ :: rest⟩ ⟨.unary, rest⟩
  | primary {ts} : front ts ≠ some (.operator .not) → Calls ⟨.unary, ts⟩ ⟨.primary, ts⟩
  | accesses {ts first rest} : front ts ≠ some (.operator .not) →
      Call.run ⟨.primary, ts⟩ = .ok (first, rest) → Calls ⟨.unary, ts⟩ ⟨.properties first, rest⟩
  | dotted {object p rest} :
      Calls ⟨.properties object, ⟨.punctuator .dot, p⟩ :: rest⟩ ⟨.propertyName, rest⟩
  | behindDotted {object p behind name rest} :
      Call.run ⟨.propertyName, behind⟩ = .ok (name, rest) →
      Calls ⟨.properties object, ⟨.punctuator .dot, p⟩ :: behind⟩
        ⟨.properties (.index object (.literal (.string name))), rest⟩
  | key {object p rest} :
      Calls ⟨.properties object, ⟨.punctuator .openBracket, p⟩ :: rest⟩ ⟨.level .or, rest⟩
  | closeBracket {object p behind key rest} :
      Call.run ⟨.level .or, behind⟩ = .ok (key, rest) →
      Calls ⟨.properties object, ⟨.punctuator .openBracket, p⟩ :: behind⟩
        ⟨.mark .closeBracket, rest⟩
  | behindKey {object p behind key mid u rest} :
      Call.run ⟨.level .or, behind⟩ = .ok (key, mid) →
      Call.run ⟨.mark .closeBracket, mid⟩ = .ok (u, rest) →
      Calls ⟨.properties object, ⟨.punctuator .openBracket, p⟩ :: behind⟩
        ⟨.properties (.index object key), rest⟩
  | named {name p rest} : Calls ⟨.primary, ⟨.identifier name, p⟩ :: rest⟩ ⟨.behindName name, rest⟩
  | inner {p rest} : Calls ⟨.primary, ⟨.punctuator .openParen, p⟩ :: rest⟩ ⟨.level .or, rest⟩
  | closeParen {p behind inner rest} : Call.run ⟨.level .or, behind⟩ = .ok (inner, rest) →
      Calls ⟨.primary, ⟨.punctuator .openParen, p⟩ :: behind⟩ ⟨.mark .closeParen, rest⟩
  | arguments {name p rest} :
      Calls ⟨.behindName name, ⟨.punctuator .openParen, p⟩ :: rest⟩ ⟨.arguments, rest⟩
  | argumentList {ts} : front ts ≠ some (.punctuator .closeParen) →
      Calls ⟨.arguments, ts⟩ ⟨.argumentList, ts⟩
  | argument {ts} : Calls ⟨.argumentList, ts⟩ ⟨.level .or, ts⟩
  | behindArgument {ts first rest} : Call.run ⟨.level .or, ts⟩ = .ok (first, rest) →
      Calls ⟨.argumentList, ts⟩ ⟨.behindArgument first, rest⟩
  | others {first p rest} :
      Calls ⟨.behindArgument first, ⟨.punctuator .comma, p⟩ :: rest⟩ ⟨.argumentList, rest⟩
  | close {first ts} : front ts ≠ some (.punctuator .comma) →
      Calls ⟨.behindArgument first, ts⟩ ⟨.mark .closeParen, ts⟩

theorem bind_congr_ok {ε α β γ : Type} {x : Except ε (α × β)} {f g : α × β → Except ε γ}
    (same : ∀ a b, x = .ok (a, b) → f (a, b) = g (a, b)) : (x >>= f) = x >>= g := by
  cases x with
  | error e => rfl
  | ok found => exact same found.1 found.2 rfl

namespace Call

/-- A reader asks nothing but the calls that are listed for it: whoever answers
    these as the parser does gets what the parser makes of the whole. -/
theorem body_eq_run {call : Call} {ask : (call : Call) → call.Result}
    (answers : ∀ callee, Calls call callee → ask callee = callee.run) :
    call.body ask = call.run := by
  rw [run_eq_body]
  obtain ⟨reader, ts⟩ := call
  cases reader with
  | level level =>
      change ask _ >>= _ = run _ >>= _
      rw [answers _ .operand]
      exact bind_congr_ok fun first rest found => answers _ (.tail found)
  | operand level =>
      cases tighter : level.tighter? with
      | some next =>
          simp only [body, tighter]
          exact answers _ (.tighter tighter)
      | none =>
          simp only [body, tighter]
          exact answers _ (.unary tighter)
  | tail level left =>
      cases operator : operatorOf? level ts with
      | some taken =>
          obtain ⟨combine, rest⟩ := taken
          simp only [body, operator]
          rw [answers _ (.right operator)]
          exact bind_congr_ok fun right rest found => answers _ (.further operator found)
      | none => simp only [body, operator]
  | unary =>
      unfold body
      dsimp only
      split
      · rw [answers _ .negated]
      · next noNot =>
          have noNot := front_ne noNot
          rw [answers _ (.primary noNot)]
          exact bind_congr_ok fun first rest found => answers _ (.accesses noNot found)
  | properties object =>
      unfold body
      dsimp only
      split
      · rw [answers _ .dotted]
        exact bind_congr_ok fun name rest found => answers _ (.behindDotted found)
      · rw [answers _ .key]
        refine bind_congr_ok fun key mid found => ?_
        dsimp only
        rw [answers _ (.closeBracket found)]
        exact bind_congr_ok fun u rest closed => answers _ (.behindKey found closed)
      · rfl
  | propertyName => rfl
  | primary =>
      unfold body
      dsimp only
      split
      · rfl
      · rfl
      · exact answers _ .named
      · rw [answers _ .inner]
        refine bind_congr_ok fun inner rest found => ?_
        dsimp only
        rw [answers _ (.closeParen found)]
      · rfl
      · rfl
      · rfl
      · rfl
  | behindName name =>
      unfold body
      dsimp only
      split
      · rw [answers _ .arguments]
      · rfl
  | arguments =>
      unfold body
      dsimp only
      split
      · rfl
      · next noClose => exact answers _ (.argumentList (front_ne noClose))
  | argumentList =>
      change ask _ >>= _ = run _ >>= _
      rw [answers _ .argument]
      exact bind_congr_ok fun first rest found => answers _ (.behindArgument found)
  | behindArgument first =>
      unfold body
      dsimp only
      split
      · rw [answers _ .others]
      · next noComma => rw [answers _ (.close (front_ne noComma))]
  | mark mark => rfl

end Call

/-! ## Calls come to an end -/

/-- Whether a reader goes on behind an operand and may take nothing more. -/
def Reader.goesOn : Reader → Bool
  | .tail .. | .properties _ | .behindName _ => true
  | _ => false

/-- How far a reader is from those that take a token at once. -/
def Reader.height : Reader → Nat
  | .level l => 2 * l.rank + 3
  | .operand l => 2 * l.rank + 2
  | .arguments => 2 * Level.or.rank + 5
  | .argumentList => 2 * Level.or.rank + 4
  | .unary | .behindArgument _ => 1
  | _ => 0

def Call.bound (call : Call) : Nat :=
  call.tokens.length + call.reader.goesOn.toNat

section Fewer

variable {α : Type} {bound : Nat} {ts rest : List Token}

theorem fewer_of_found? {r : Except Cause (Parsed α bound)} {value : α}
    (h : found? r = .ok (value, rest)) : rest.length < bound := by
  cases r with
  | error cause => cases h
  | ok parsed =>
      cases h
      exact parsed.fewer

theorem Call.fewer {call : Call} {value : call.reader.Value}
    (h : call.run = .ok (value, rest)) : rest.length < call.bound := by
  obtain ⟨reader, ts⟩ := call
  cases reader with
  | propertyName =>
      change readPropertyName ts = _ at h
      unfold readPropertyName at h
      split at h
      · cases h
        exact Nat.lt_succ_self _
      · cases h
  | behindName name =>
      change readBehindName name ts = _ at h
      unfold readBehindName at h
      split at h
      · obtain ⟨⟨parameters, rest⟩, found, h⟩ := exists_of_bind_eq_ok h
        cases h
        exact Nat.lt_succ_of_lt (Nat.lt_succ_of_lt (fewer_of_found? found))
      · cases h
        exact Nat.lt_succ_self _
  | behindArgument first =>
      change readBehindArgument first ts = _ at h
      unfold readBehindArgument at h
      split at h
      · obtain ⟨⟨others, rest⟩, found, h⟩ := exists_of_bind_eq_ok h
        cases h
        exact Nat.lt_succ_of_lt (fewer_of_found? found)
      · obtain ⟨⟨u, rest⟩, found, h⟩ := exists_of_bind_eq_ok h
        cases h
        exact fewer_of_found? found
  | _ => exact fewer_of_found? h

end Fewer

/-- A call has fewer tokens left than its caller, or is of a reader nearer to
    the tokens. -/
theorem Calls.descends {call callee : Call} (h : Calls call callee) :
    callee.tokens.length < call.tokens.length ∨
      callee.tokens.length = call.tokens.length ∧ callee.reader.height < call.reader.height := by
  cases h with
  | operand | primary | argument | argumentList => exact .inr ⟨rfl, by simp [Reader.height]⟩
  | tail found => exact .inl (Call.fewer found)
  | tighter h =>
      have := Level.rank_lt_of_tighter? h
      exact .inr ⟨rfl, by simp only [Reader.height]; omega⟩
  | unary => exact .inr ⟨rfl, by simp only [Reader.height]; omega⟩
  | right operator => exact .inl (length_of_operatorOf? operator)
  | further operator found =>
      exact .inl (Nat.lt_trans (Call.fewer found) (length_of_operatorOf? operator))
  | negated | dotted | key | named | inner | arguments | others => exact .inl (Nat.lt_succ_self _)
  | accesses _ found => exact .inl (Call.fewer found)
  | behindDotted found => exact .inl (Nat.lt_succ_of_lt (Call.fewer found))
  | closeBracket found => exact .inl (Nat.lt_succ_of_lt (Call.fewer found))
  | behindKey found closed =>
      exact .inl (Nat.lt_succ_of_lt (Nat.lt_trans (Call.fewer closed) (Call.fewer found)))
  | closeParen found => exact .inl (Nat.lt_succ_of_lt (Call.fewer found))
  | behindArgument found => exact .inl (Call.fewer found)
  | close => exact .inr ⟨rfl, by simp [Reader.height]⟩

/-- No chain of calls goes on forever. -/
theorem wellFounded_calls : WellFounded fun callee call => Calls call callee := by
  refine Subrelation.wf (fun {callee call} h => ?_)
    (InvImage.wf (fun call => (call.tokens.length, call.reader.height))
      (Prod.lex Nat.lt_wfRel Nat.lt_wfRel).wf)
  rcases h.descends with fewer | ⟨same, lower⟩
  · exact .left _ _ fewer
  · change Prod.Lex _ _ (_, _) (_, _)
    rw [same]
    exact .right _ lower

end JobMatrix.Expr
