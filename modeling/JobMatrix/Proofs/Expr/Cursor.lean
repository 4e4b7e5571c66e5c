import Mathlib
import JobMatrix.Proofs.Expr.Calls
import JobMatrix.Proofs.Expr.Parsing

/-! # Where the parser looks

The lexer writes the end once, as the last token, and no reader takes it.  So
whatever a reader looks at is a token: a call never starts or stops behind the
end, and an error tells of a token that is there.
-/

namespace JobMatrix.Expr

def Cause.IsAt (token : Token) : Cause → Prop
  | .expected _ position lexeme => position = token.position ∧ lexeme = found [token]
  | .expectedProperty position => position = token.position
  | .unexpected value position => value = token.lexeme.value ∧ position = token.position
  | .unexpectedEnd => token.lexeme = .finish
  | _ => False

/-- What is left of a row of tokens at a place that is not behind its end. -/
def Inside (tokens ts : List Token) : Prop :=
  ts ≠ [] ∧ ts <:+ tokens

/-- What a reader comes to keeps to a row of tokens. -/
def Stays {α : Type} (tokens : List Token) : Except Cause (α × List Token) → Prop
  | .ok (_, rest) => Inside tokens rest
  | .error cause => ∃ token ∈ tokens, cause.IsAt token

section Row

variable {tokens ts rest : List Token} {token : Token}

theorem Inside.refl (h : tokens ≠ []) : Inside tokens tokens :=
  ⟨h, List.suffix_refl tokens⟩

theorem Inside.mem (h : Inside tokens (token :: rest)) : token ∈ tokens :=
  h.2.subset List.mem_cons_self

/-- What is left at a place is told by its index. -/
theorem Inside.eq_drop (h : Inside tokens ts) :
    tokens.length - ts.length < tokens.length ∧
      ts = tokens.drop (tokens.length - ts.length) := by
  obtain ⟨some, left⟩ := h
  have := List.length_pos_iff.mpr some
  have := left.length_le
  exact ⟨by omega, List.suffix_iff_eq_drop.mp left⟩

theorem Stays.bind {α β : Type} {r : Except Cause (α × List Token)}
    {next : α × List Token → Except Cause (β × List Token)} (first : Stays tokens r)
    (further : ∀ value rest, r = .ok (value, rest) → Inside tokens rest →
      Stays tokens (next (value, rest))) : Stays tokens (r >>= next) := by
  cases r with
  | error cause => exact first
  | ok found => exact further _ _ rfl first

variable {before : List Token} {p : Nat}

theorem Inside.behind (ends : tokens = before ++ [⟨.finish, p⟩])
    (h : Inside tokens (token :: rest)) (more : token.lexeme ≠ .finish) : Inside tokens rest := by
  refine ⟨?_, (List.suffix_cons token rest).trans h.2⟩
  rintro rfl
  obtain ⟨earlier, same⟩ := h.2
  rw [ends] at same
  obtain ⟨-, same⟩ := List.append_inj' same rfl
  cases same
  exact more rfl

end Row

section Calls

variable {tokens before : List Token} {p : Nat}

theorem stays_expect (ends : tokens = before ++ [⟨.finish, p⟩]) (mark : Punctuator)
    {ts : List Token} (h : Inside tokens ts) : Stays tokens (found? (expect mark ts)) := by
  rcases ts with _ | ⟨⟨lexeme, position⟩, rest⟩
  · exact absurd rfl h.1
  · rw [expect]
    split
    · next same =>
        subst same
        exact h.behind ends (by simp)
    · refine ⟨_, h.mem, rfl, ?_⟩
      cases lexeme <;> rfl

/-- Whatever place of the row a reader starts at, it keeps to the row. -/
theorem Call.stays (ends : tokens = before ++ [⟨.finish, p⟩]) (call : Call)
    (h : Inside tokens call.tokens) : Stays tokens call.run := by
  -- the readers call each other, and their calls come to an end
  induction call using wellFounded_calls.induction with
  | _ call ih =>
  obtain ⟨reader, ts⟩ := call
  change Inside tokens ts at h
  rw [run_eq_body]
  cases reader with
  | level level =>
      refine (ih _ .operand h).bind fun first rest found inside => ?_
      exact ih _ (.tail found) inside
  | operand level =>
      cases tighter : level.tighter? with
      | some next =>
          simp only [body, tighter]
          exact ih _ (.tighter tighter) h
      | none =>
          simp only [body, tighter]
          exact ih _ (.unary tighter) h
  | tail level left =>
      cases operator : operatorOf? level ts with
      | none =>
          simp only [body, operator]
          exact h
      | some taken =>
          obtain ⟨combine, behind⟩ := taken
          simp only [body, operator]
          obtain ⟨op, position, rfl, -⟩ := operatorOf?_eq_some_iff.mp operator
          have h := h.behind ends (by simp)
          refine (ih _ (.right operator) h).bind fun right rest found inside => ?_
          exact ih _ (.further operator found) inside
  | unary =>
      unfold body
      dsimp only
      split
      · have h := h.behind ends (by simp)
        exact (ih _ .negated h).bind fun operand rest found inside => inside
      · next noNot =>
          have noNot := front_ne noNot
          refine (ih _ (.primary noNot) h).bind fun first rest found inside => ?_
          exact ih _ (.accesses noNot found) inside
  | properties object =>
      unfold body
      dsimp only
      split
      · have h := h.behind ends (by simp)
        refine (ih _ .dotted h).bind fun name rest found inside => ?_
        exact ih _ (.behindDotted found) inside
      · have h := h.behind ends (by simp)
        refine (ih _ .key h).bind fun key mid found inside => ?_
        refine (ih _ (.closeBracket found) inside).bind fun u rest closed inside => ?_
        exact ih _ (.behindKey found closed) inside
      · exact h
  | propertyName =>
      change Stays tokens (readPropertyName ts)
      unfold readPropertyName
      split
      · exact h.behind ends (by simp)
      · rcases ts with _ | ⟨token, rest⟩
        · exact absurd rfl h.1
        · exact ⟨token, h.mem, rfl⟩
  | primary =>
      unfold body
      dsimp only
      split
      · exact absurd rfl h.1
      · exact ⟨_, h.mem, rfl⟩
      · exact ih _ .named (h.behind ends (by simp))
      · have h := h.behind ends (by simp)
        refine (ih _ .inner h).bind fun inner rest found inside => ?_
        exact (ih _ (.closeParen found) inside).bind fun u rest closed inside => inside
      · exact ⟨_, h.mem, rfl, rfl⟩
      · exact h.behind ends (by simp)
      · exact h.behind ends (by simp)
      · exact ⟨_, h.mem, rfl, rfl⟩
  | behindName name =>
      unfold body
      dsimp only
      split
      · have h := h.behind ends (by simp)
        exact (ih _ .arguments h).bind fun parameters rest found inside => inside
      · exact h
  | arguments =>
      unfold body
      dsimp only
      split
      · exact h.behind ends (by simp)
      · next noClose => exact ih _ (.argumentList (front_ne noClose)) h
  | argumentList =>
      refine (ih _ .argument h).bind fun first rest found inside => ?_
      exact ih _ (.behindArgument found) inside
  | behindArgument first =>
      unfold body
      dsimp only
      split
      · have h := h.behind ends (by simp)
        exact (ih _ .others h).bind fun others rest found inside => inside
      · next noComma =>
          exact (ih _ (.close (front_ne noComma)) h).bind fun u rest closed inside => inside
  | mark mark => exact stays_expect ends mark h

theorem Call.inside_of_run (ends : tokens = before ++ [⟨.finish, p⟩]) {call : Call}
    {value : call.reader.Value} {rest : List Token} (found : call.run = .ok (value, rest))
    (h : Inside tokens call.tokens) : Inside tokens rest := by
  have := call.stays ends h
  rw [found] at this
  exact this

/-- A reader calls others at places of its row only. -/
theorem Calls.inside (ends : tokens = before ++ [⟨.finish, p⟩]) {call callee : Call}
    (calls : Calls call callee) (h : Inside tokens call.tokens) : Inside tokens callee.tokens := by
  cases calls with
  | operand | tighter | unary | primary | argumentList | argument | close => exact h
  | negated | dotted | key | named | inner | arguments | others =>
      exact h.behind ends (by simp)
  | tail found | accesses _ found | behindArgument found =>
      exact Call.inside_of_run ends found h
  | right operator =>
      obtain ⟨op, position, rfl, -⟩ := operatorOf?_eq_some_iff.mp operator
      exact h.behind ends (by simp)
  | further operator found =>
      obtain ⟨op, position, rfl, -⟩ := operatorOf?_eq_some_iff.mp operator
      exact Call.inside_of_run ends found (h.behind ends (by simp))
  | behindDotted found | closeBracket found | closeParen found =>
      exact Call.inside_of_run ends found (h.behind ends (by simp))
  | behindKey found closed =>
      have mid := Call.inside_of_run ends found (h.behind ends (by simp))
      exact Call.inside_of_run ends closed mid

/-- So do the readers that those call, however deep. -/
theorem Calls.inside_of_reached (ends : tokens = before ++ [⟨.finish, p⟩]) {call callee : Call}
    (reached : Relation.ReflTransGen Calls call callee) (h : Inside tokens call.tokens) :
    Inside tokens callee.tokens := by
  induction reached with
  | refl => exact h
  | tail _ calls ih => exact calls.inside ends ih

/-- What is left behind the whole expression is a token too. -/
theorem isAt_of_ofTokens (ends : tokens = before ++ [⟨.finish, p⟩]) {cause : Cause}
    (h : ofTokens tokens = .error cause) : ∃ token ∈ tokens, cause.IsAt token := by
  have stays := Call.stays ends ⟨.level .or, tokens⟩ (.refl (by simp [ends]))
  change Stays tokens (found? (parseLevel .or tokens)) at stays
  unfold ofTokens at h
  cases reads : parseLevel .or tokens with
  | error cause' =>
      rw [reads] at h stays
      cases h
      exact stays
  | ok parsed =>
      obtain ⟨root, rest, fewer⟩ := parsed
      rw [reads] at h stays
      change Inside tokens rest at stays
      rcases rest with _ | ⟨⟨lexeme, position⟩, behind⟩
      · exact absurd rfl stays.1
      · refine ⟨_, stays.mem, ?_⟩
        cases lexeme <;> cases h <;> exact ⟨rfl, rfl⟩

end Calls

/-- A call that starts at a place of a row of tokens keeps to the places up to
    the last one: there is a token where it starts, one further on where it stops,
    and one of the row that its error is about. -/
structure Call.KeepsTo (call : Call) (tokens : List Token) (last cursor : Nat) : Prop where
  inside : cursor ≤ last
  left : call.tokens = tokens.drop cursor
  looksAt : ∃ token, tokens[cursor]? = some token ∧ call.tokens.head? = some token
  /-- A loop behind an operand may take nothing; all other readers go on. -/
  advances : ∀ value rest, call.run = .ok (value, rest) →
    ∃ next ≤ last, rest = tokens.drop next ∧ cursor ≤ next ∧
      (call.reader.goesOn = false → cursor < next)
  reports : ∀ cause, call.run = .error cause → ∃ token ∈ tokens, cause.IsAt token

section KeepsTo

variable {tokens before : List Token} {p : Nat}

theorem Call.keepsTo_of_inside (ends : tokens = before ++ [⟨.finish, p⟩]) {call : Call}
    (h : Inside tokens call.tokens) : ∃ cursor, call.KeepsTo tokens before.length cursor := by
  have size : tokens.length = before.length + 1 := by simp [ends]
  obtain ⟨bound, left⟩ := h.eq_drop
  have fits := h.2.length_le
  have there := List.getElem?_eq_getElem bound
  have looks := (congrArg List.head? left).trans List.head?_drop
  refine ⟨tokens.length - call.tokens.length, by omega, left, ⟨_, there, looks.trans there⟩, ?_, ?_⟩
  · intro value rest found
    have fewer := Call.fewer found
    obtain ⟨bound', left'⟩ := (Call.inside_of_run ends found h).eq_drop
    unfold Call.bound at fewer
    refine ⟨tokens.length - rest.length, by omega, left', ?_, fun tight => ?_⟩
    · have := Bool.toNat_le call.reader.goesOn
      omega
    · rw [tight, Bool.toNat_false] at fewer
      omega
  · intro cause failed
    have stays := call.stays ends h
    rw [failed] at stays
    exact stays

end KeepsTo

/-- The parser never runs past its tokens.  Its calls, which are all that a
    reader asks for, come to an end on any row of tokens.  A row that the lexer
    writes ends with its only end, and no call that comes of the whole row leaves
    the places up to that one; what the parser reports is about a token of the
    row. -/
theorem readers_keep_to_tokens :
    (WellFounded fun callee call => Calls call callee) ∧
      (∀ (call : Call) (ask : (call : Call) → call.Result),
        (∀ callee, Calls call callee → ask callee = callee.run) → call.body ask = call.run) ∧
      ∀ text tokens, tokenize text = .ok tokens →
        ∃ before p, tokens = before ++ [⟨.finish, p⟩] ∧ Unfinished before ∧
          (∀ call, Relation.ReflTransGen Calls ⟨.level .or, tokens⟩ call →
            ∃ cursor, call.KeepsTo tokens before.length cursor) ∧
          ∀ e, parse text = .error e → ∃ token ∈ tokens, e.cause.IsAt token := by
  refine ⟨wellFounded_calls, fun call ask answers => Call.body_eq_run answers, ?_⟩
  intro text tokens tokenized
  obtain ⟨before, p, ends, unfinished⟩ := finish_of_lexFrom (tokenize_eq_ok_iff.mp tokenized)
  refine ⟨before, p, ends, unfinished, fun call reached => ?_, fun e failed => ?_⟩
  · have whole : Inside tokens tokens := .refl (by simp [ends])
    exact Call.keepsTo_of_inside ends (Calls.inside_of_reached ends reached whole)
  · have lexed := tokenize_eq_ok_iff.mp tokenized
    unfold parse at failed
    rw [lexed] at failed
    dsimp only [bind, Except.bind] at failed
    cases result : ofTokens tokens with
    | ok root =>
        rw [result] at failed
        cases failed
    | error cause =>
        rw [result] at failed
        cases failed
        exact isAt_of_ofTokens ends result

theorem missing_property_reported_at_end :
    tokenize "a." = .ok [⟨.identifier "a", 0⟩, ⟨.punctuator .dot, 1⟩, ⟨.finish, 2⟩] ∧
      Relation.ReflTransGen Calls
        ⟨.level .or, [⟨.identifier "a", 0⟩, ⟨.punctuator .dot, 1⟩, ⟨.finish, 2⟩]⟩
        ⟨.propertyName, [⟨.finish, 2⟩]⟩ ∧
      Call.KeepsTo ⟨.propertyName, [⟨.finish, 2⟩]⟩
        [⟨.identifier "a", 0⟩, ⟨.punctuator .dot, 1⟩, ⟨.finish, 2⟩] 2 2 ∧
      parse "a." = .error ⟨"a.", .expectedProperty 2⟩ ∧
      ∃ token ∈ [⟨.identifier "a", 0⟩, ⟨.punctuator .dot, 1⟩, ⟨.finish, 2⟩],
        Cause.IsAt token (.expectedProperty 2) := by
  have tokenized : tokenize "a." =
      .ok [⟨.identifier "a", 0⟩, ⟨.punctuator .dot, 1⟩, ⟨.finish, 2⟩] := by cbv
  have failed : parse "a." = .error ⟨"a.", .expectedProperty 2⟩ := by cbv
  obtain ⟨before, p, ends, -, keeps, reports⟩ := readers_keep_to_tokens.2.2 _ _ tokenized
  have size : before.length = 2 := by simpa using (congrArg List.length ends).symm
  have object (ts : List Token) : Call.run ⟨.primary, ⟨.identifier "a", 0⟩ ::
      ⟨.punctuator .dot, 1⟩ :: ts⟩ = .ok (ofName "a", ⟨.punctuator .dot, 1⟩ :: ts) := by
    rw [Call.run_eq_body]
    rfl
  have reached : Relation.ReflTransGen Calls
      ⟨.level .or, [⟨.identifier "a", 0⟩, ⟨.punctuator .dot, 1⟩, ⟨.finish, 2⟩]⟩
      ⟨.propertyName, [⟨.finish, 2⟩]⟩ :=
    .head .operand <| .head (.tighter rfl) <| .head .operand <| .head (.tighter rfl) <|
      .head .operand <| .head (.tighter rfl) <| .head .operand <| .head (.unary rfl) <|
      .head (.accesses (by simp) (object _)) <| .single .dotted
  obtain ⟨cursor, kept⟩ := keeps _ reached
  rw [size] at kept
  have cursor_eq : cursor = 2 := by
    have left := congrArg List.length kept.left
    have := kept.inside
    simp only [List.length_cons, List.length_nil, List.length_drop] at left
    omega
  subst cursor_eq
  exact ⟨tokenized, reached, kept, failed, reports _ failed⟩

end JobMatrix.Expr
