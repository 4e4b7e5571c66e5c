import JobMatrix.Proofs.Expr.Reading

/-! # The grammar of expressions

Which rows of tokens stand for which trees, with no reader in sight: four
levels of operators with two operands, then negation, property access, and the
operands themselves.  Where a token stands in its text does not matter.
-/

namespace JobMatrix.Expr

/-- The operators that join operands of a level, and the tree of two operands. -/
inductive Joins : Level → Operator → Expr → Expr → Expr → Prop
  | or {left right} : Joins .or .or left right (.logical .or left right)
  | and {left right} : Joins .and .and left right (.logical .and left right)
  | equal {left right} : Joins .equality .equal left right (.comparison .equal left right)
  | notEqual {left right} : Joins .equality .notEqual left right (.comparison .notEqual left right)
  | less {left right} : Joins .order .less left right (.comparison .less left right)
  | lessEqual {left right} :
      Joins .order .lessEqual left right (.comparison .lessEqual left right)
  | greater {left right} : Joins .order .greater left right (.comparison .greater left right)
  | greaterEqual {left right} :
      Joins .order .greaterEqual left right (.comparison .greaterEqual left right)

/-- The tree of a name that is not called: keywords are literals, in any case
    of their letters. -/
inductive Named (name : String) : Expr → Prop
  | true : Text.toLower name = "true" → Named name (.literal (.bool true))
  | false : Text.toLower name = "false" → Named name (.literal (.bool false))
  | null : Text.toLower name = "null" → Named name (.literal .null)
  | context : Text.toLower name ∉ ["true", "false", "null"] →
      Named name (.context (Text.toLower name))

mutual

/-- Operands of a level joined by its operators, grouped to the left. -/
inductive Joined : Level → List Token → Expr → Prop
  | operand {level ts t} : Operand level ts t → Joined level ts t
  | join {level ts ts' left right op t p} :
      Joined level ts left → Operand level ts' right → Joins level op left right t →
      Joined level (ts ++ ⟨.operator op, p⟩ :: ts') t

/-- An operand of a level is made of the operators of the next tighter one. -/
inductive Operand : Level → List Token → Expr → Prop
  | or {ts t} : Joined .and ts t → Operand .or ts t
  | and {ts t} : Joined .equality ts t → Operand .and ts t
  | equality {ts t} : Joined .order ts t → Operand .equality ts t
  | order {ts t} : Unary ts t → Operand .order ts t

inductive Unary : List Token → Expr → Prop
  | not {ts t p} : Unary ts t → Unary (⟨.operator .not, p⟩ :: ts) (.not t)
  | access {ts t} : Access ts t → Unary ts t

/-- An operand with the properties taken of it, by name or by a key. -/
inductive Access : List Token → Expr → Prop
  | primary {ts t} : Primary ts t → Access ts t
  | property {ts object name p p'} : Access ts object →
      Access (ts ++ [⟨.punctuator .dot, p⟩, ⟨.identifier name, p'⟩])
        (.index object (.literal (.string name)))
  | index {ts ts' object key p p'} : Access ts object → Joined .or ts' key →
      Access (ts ++ ⟨.punctuator .openBracket, p⟩ :: (ts' ++ [⟨.punctuator .closeBracket, p'⟩]))
        (.index object key)

inductive Primary : List Token → Expr → Prop
  | call {ts name parameters p p' p''} : Arguments ts parameters →
      Primary (⟨.identifier name, p⟩ :: ⟨.punctuator .openParen, p'⟩ ::
          (ts ++ [⟨.punctuator .closeParen, p''⟩]))
        (.call (Text.toLower name) parameters)
  | name {name t p} : Named name t → Primary [⟨.identifier name, p⟩] t
  | string {value p} : Primary [⟨.string value, p⟩] (.literal (.string value))
  | number {text p} : Primary [⟨.number text, p⟩] (.literal (.number (Number.ofText text)))
  | paren {ts t p p'} : Joined .or ts t →
      Primary (⟨.punctuator .openParen, p⟩ :: (ts ++ [⟨.punctuator .closeParen, p'⟩])) t

inductive Arguments : List Token → List Expr → Prop
  | none : Arguments [] []
  | some {ts parameters} : ArgumentList ts parameters → Arguments ts parameters

/-- Arguments separated by commas, at least one. -/
inductive ArgumentList : List Token → List Expr → Prop
  | last {ts t} : Joined .or ts t → ArgumentList ts [t]
  | more {ts ts' t others p} : Joined .or ts t → ArgumentList ts' others →
      ArgumentList (ts ++ ⟨.punctuator .comma, p⟩ :: ts') (t :: others)

end

theorem joins_iff {level : Level} {op : Operator} {left right t : Expr} :
    Joins level op left right t ↔
      ∃ combine, level.combine? op = some combine ∧ t = combine left right := by
  constructor
  · rintro ⟨⟩ <;> exact ⟨_, rfl, rfl⟩
  · rintro ⟨combine, h, rfl⟩
    cases op <;> simp only [Level.combine?, Option.ite_none_right_eq_some, Option.some.injEq,
      reduceCtorEq] at h <;> obtain ⟨rfl, rfl⟩ := h <;> constructor

theorem Operand.of_tighter? {level next : Level} {ts : List Token} {t : Expr}
    (h : level.tighter? = some next) (joined : Joined next ts t) : Operand level ts t := by
  cases level with
  | or => cases h; exact .or joined
  | and => cases h; exact .and joined
  | equality => cases h; exact .equality joined
  | order => cases h

theorem named_iff {name : String} {t : Expr} : Named name t ↔ t = ofName name := by
  unfold ofName
  constructor
  · rintro (h | h | h | h)
    · simp [h]
    · simp [h]
    · simp [h]
    · simp only [List.mem_cons, List.not_mem_nil, or_false, not_or] at h
      split <;> simp_all
  · rintro rfl
    split
    · exact .true ‹_›
    · exact .false ‹_›
    · exact .null ‹_›
    · exact .context (by simp_all)

theorem operatorOf?_eq_some_iff {level : Level} {ts behind : List Token}
    {combine : Expr → Expr → Expr} :
    operatorOf? level ts = some (combine, behind) ↔
      ∃ op p, ts = ⟨.operator op, p⟩ :: behind ∧ level.combine? op = some combine := by
  constructor
  · intro h
    unfold operatorOf? at h
    split at h
    · simp only [Option.map_eq_some_iff, Prod.mk.injEq] at h
      obtain ⟨_, combines, rfl, rfl⟩ := h
      exact ⟨_, _, rfl, combines⟩
    · cases h
  · rintro ⟨op, p, rfl, combines⟩
    simp [operatorOf?, combines]

/-! ### Only the lexer writes the end -/

def Unfinished (ts : List Token) : Prop :=
  ∀ token ∈ ts, token.lexeme ≠ .finish

@[simp]
theorem unfinished_nil : Unfinished [] := by
  simp [Unfinished]

@[simp]
theorem unfinished_cons {token : Token} {ts : List Token} :
    Unfinished (token :: ts) ↔ token.lexeme ≠ .finish ∧ Unfinished ts := by
  simp [Unfinished]

@[simp]
theorem unfinished_append {ts ts' : List Token} :
    Unfinished (ts ++ ts') ↔ Unfinished ts ∧ Unfinished ts' := by
  simp [Unfinished, or_imp, forall_and]

/-- The first end divides a row of tokens in one way only. -/
theorem Unfinished.eq_of_append {ts ts' rest rest' : List Token} {p p' : Nat}
    (h : Unfinished ts) (h' : Unfinished ts')
    (same : ts ++ ⟨.finish, p⟩ :: rest = ts' ++ ⟨.finish, p'⟩ :: rest') :
    ts = ts' ∧ p = p' ∧ rest = rest' := by
  induction ts generalizing ts' with
  | nil =>
      cases ts' with
      | nil => simpa using same
      | cons token ts' =>
          obtain ⟨rfl, -⟩ := List.cons.inj same
          simp at h'
  | cons token ts ih =>
      cases ts' with
      | nil =>
          obtain ⟨rfl, -⟩ := List.cons.inj same
          simp at h
      | cons token' ts' =>
          obtain ⟨rfl, behind⟩ := List.cons.inj same
          obtain ⟨rfl, rest⟩ := ih (unfinished_cons.mp h).2 (unfinished_cons.mp h').2 behind
          exact ⟨rfl, rest⟩

mutual

theorem Joined.unfinished {level ts t} : Joined level ts t → Unfinished ts
  | .operand operand => operand.unfinished
  | .join joined operand _ => by simp [joined.unfinished, operand.unfinished]

theorem Operand.unfinished {level ts t} : Operand level ts t → Unfinished ts
  | .or joined => joined.unfinished
  | .and joined => joined.unfinished
  | .equality joined => joined.unfinished
  | .order unary => unary.unfinished

theorem Unary.unfinished {ts t} : Unary ts t → Unfinished ts
  | .not unary => by simp [unary.unfinished]
  | .access access => access.unfinished

theorem Access.unfinished {ts t} : Access ts t → Unfinished ts
  | .primary primary => primary.unfinished
  | .property access => by simp [access.unfinished]
  | .index access joined => by simp [access.unfinished, joined.unfinished]

theorem Primary.unfinished {ts t} : Primary ts t → Unfinished ts
  | .call arguments => by simp [arguments.unfinished]
  | .name _ => by simp
  | .string => by simp
  | .number => by simp
  | .paren joined => by simp [joined.unfinished]

theorem Arguments.unfinished {ts parameters} : Arguments ts parameters → Unfinished ts
  | .none => unfinished_nil
  | .some list => list.unfinished

theorem ArgumentList.unfinished {ts parameters} : ArgumentList ts parameters → Unfinished ts
  | .last joined => joined.unfinished
  | .more joined others => by simp [joined.unfinished, others.unfinished]

end

end JobMatrix.Expr
