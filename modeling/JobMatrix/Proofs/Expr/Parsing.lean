import JobMatrix.Proofs.Expr.Grammar

/-! # The parser and its grammar

The parser returns a tree exactly when the tokens of the text derive it.
-/

namespace JobMatrix.Expr

/-! ### What the parser reads, the grammar derives -/

-- The recursion is that of the readers.  The two that loop are given what has
-- been derived before them, and add to it.
mutual

theorem joined_of_reads {level : Level} {ts rest : List Token} {t : Expr}
    (h : Reads (parseLevel level ts) t rest) : ∃ pre, ts = pre ++ rest ∧ Joined level pre t := by
  obtain ⟨first, mid, operand, tail⟩ := reads_parseLevel.mp h
  have := operand.fewer
  obtain ⟨pre, rfl, derived⟩ := operand_of_reads operand
  obtain ⟨more, rfl, derived⟩ := joined_of_reads_tail (.operand derived) tail
  exact ⟨pre ++ more, by simp, derived⟩
termination_by (ts.length, 2 * level.rank + 3)

theorem operand_of_reads {level : Level} {ts rest : List Token} {t : Expr}
    (h : Reads (parseOperand level ts) t rest) : ∃ pre, ts = pre ++ rest ∧ Operand level pre t := by
  cases tighter : level.tighter? with
  | some next =>
      have := Level.rank_lt_of_tighter? tighter
      rw [parseOperand_of_tighter? tighter] at h
      obtain ⟨pre, same, derived⟩ := joined_of_reads h
      exact ⟨pre, same, .of_tighter? tighter derived⟩
  | none =>
      obtain rfl := Level.eq_order_of_tighter? tighter
      rw [parseOperand_order] at h
      obtain ⟨pre, same, derived⟩ := unary_of_reads h
      exact ⟨pre, same, .order derived⟩
termination_by (ts.length, 2 * level.rank + 2)

/-- Operators behind what a level has derived. -/
theorem joined_of_reads_tail {level : Level} {pre ts rest : List Token} {left t : Expr}
    (before : Joined level pre left) (h : Reads (parseTail level left ts) t rest) :
    ∃ more, ts = more ++ rest ∧ Joined level (pre ++ more) t := by
  cases operator : operatorOf? level ts with
  | none =>
      obtain ⟨rfl, rfl⟩ := (reads_parseTail_of_none operator).mp h
      exact ⟨[], by simp, by simpa using before⟩
  | some found =>
      obtain ⟨combine, behind⟩ := found
      obtain ⟨right, mid, operand, tail⟩ := (reads_parseTail_of_some operator).mp h
      obtain ⟨op, p, rfl, combines⟩ := operatorOf?_eq_some_iff.mp operator
      have := operand.fewer
      obtain ⟨pre', rfl, derived⟩ := operand_of_reads operand
      have joined : Joined level (pre ++ ⟨.operator op, p⟩ :: pre') (combine left right) :=
        before.join derived (joins_iff.mpr ⟨combine, combines, rfl⟩)
      obtain ⟨more, rfl, derived⟩ := joined_of_reads_tail joined tail
      exact ⟨⟨.operator op, p⟩ :: (pre' ++ more), by simp, by simpa using derived⟩
termination_by (ts.length, 0)

theorem unary_of_reads {ts rest : List Token} {t : Expr} (h : Reads (parseUnary ts) t rest) :
    ∃ pre, ts = pre ++ rest ∧ Unary pre t := by
  rcases reads_parseUnary.mp h with ⟨p, behind, operand, rfl, inside, rfl⟩ |
    ⟨first, mid, primary, further⟩
  · obtain ⟨pre, rfl, derived⟩ := unary_of_reads inside
    exact ⟨⟨.operator .not, p⟩ :: pre, rfl, .not derived⟩
  · have := primary.fewer
    obtain ⟨pre, rfl, derived⟩ := primary_of_reads primary
    obtain ⟨more, rfl, derived⟩ := access_of_reads (.primary derived) further
    exact ⟨pre ++ more, by simp, .access derived⟩
termination_by (ts.length, 1)

/-- Property accesses behind what has been derived. -/
theorem access_of_reads {pre ts rest : List Token} {object t : Expr} (before : Access pre object)
    (h : Reads (parsePostfix object ts) t rest) :
    ∃ more, ts = more ++ rest ∧ Access (pre ++ more) t := by
  rcases reads_parsePostfix.mp h with ⟨p, p', name, behind, rfl, further⟩ |
    ⟨p, p', inner, key, behind, rfl, inside, further⟩ | ⟨-, -, rfl, rfl⟩
  · have property : Access (pre ++ [⟨.punctuator .dot, p⟩, ⟨.identifier name, p'⟩])
        (.index object (.literal (.string name))) := before.property
    obtain ⟨more, rfl, derived⟩ := access_of_reads property further
    exact ⟨⟨.punctuator .dot, p⟩ :: ⟨.identifier name, p'⟩ :: more, rfl, by simpa using derived⟩
  · have := inside.fewer
    simp only [List.length_cons] at this
    obtain ⟨pre', rfl, keyDerived⟩ := joined_of_reads inside
    have index : Access (pre ++ ⟨.punctuator .openBracket, p⟩ ::
        (pre' ++ [⟨.punctuator .closeBracket, p'⟩])) (.index object key) :=
      before.index keyDerived
    obtain ⟨more, rfl, derived⟩ := access_of_reads index further
    exact ⟨⟨.punctuator .openBracket, p⟩ :: (pre' ++ ⟨.punctuator .closeBracket, p'⟩ :: more),
      by simp, by simpa using derived⟩
  · exact ⟨[], by simp, by simpa using before⟩
termination_by (ts.length, 0)

theorem primary_of_reads {ts rest : List Token} {t : Expr} (h : Reads (parsePrimary ts) t rest) :
    ∃ pre, ts = pre ++ rest ∧ Primary pre t := by
  rcases reads_parsePrimary.mp h with ⟨name, p, p', inner, parameters, rfl, inside, rfl⟩ |
    ⟨name, p, rfl, -, rfl⟩ | ⟨p, p', inner, rfl, inside⟩ | ⟨value, p, rfl, rfl⟩ | ⟨text, p, rfl, rfl⟩
  · obtain ⟨pre, p'', rfl, derived⟩ := arguments_of_reads inside
    refine ⟨⟨.identifier name, p⟩ :: ⟨.punctuator .openParen, p'⟩ ::
      (pre ++ [⟨.punctuator .closeParen, p''⟩]), by simp, .call derived⟩
  · exact ⟨[⟨.identifier name, p⟩], rfl, .name (named_iff.mpr rfl)⟩
  · obtain ⟨pre, rfl, derived⟩ := joined_of_reads inside
    refine ⟨⟨.punctuator .openParen, p⟩ :: (pre ++ [⟨.punctuator .closeParen, p'⟩]), by simp,
      .paren derived⟩
  · exact ⟨[⟨.string value, p⟩], rfl, .string⟩
  · exact ⟨[⟨.number text, p⟩], rfl, .number⟩
termination_by (ts.length, 0)

theorem arguments_of_reads {ts rest : List Token} {parameters : List Expr}
    (h : Reads (parseArguments ts) parameters rest) :
    ∃ pre p, ts = pre ++ ⟨.punctuator .closeParen, p⟩ :: rest ∧ Arguments pre parameters := by
  rcases reads_parseArguments.mp h with ⟨p, rfl, rfl⟩ | list
  · exact ⟨[], p, rfl, .none⟩
  · obtain ⟨pre, p, same, derived⟩ := argumentList_of_reads list
    exact ⟨pre, p, same, .some derived⟩
termination_by (ts.length, 5 + 2 * Level.or.rank)

theorem argumentList_of_reads {ts rest : List Token} {parameters : List Expr}
    (h : Reads (parseArgumentList ts) parameters rest) :
    ∃ pre p, ts = pre ++ ⟨.punctuator .closeParen, p⟩ :: rest ∧ ArgumentList pre parameters := by
  rcases reads_parseArgumentList.mp h with ⟨p, first, inner, others, inside, further, rfl⟩ |
    ⟨p, first, inside, rfl⟩
  · have := inside.fewer
    simp only [List.length_cons] at this
    obtain ⟨pre, rfl, derived⟩ := joined_of_reads inside
    obtain ⟨pre', p', rfl, others⟩ := argumentList_of_reads further
    exact ⟨pre ++ ⟨.punctuator .comma, p⟩ :: pre', p', by simp, .more derived others⟩
  · obtain ⟨pre, rfl, derived⟩ := joined_of_reads inside
    exact ⟨pre, p, rfl, .last derived⟩
termination_by (ts.length, 4 + 2 * Level.or.rank)

end

/-! ### What the grammar derives, the parser reads -/

/-- What may follow an operand: nothing that an access, a call, or a level
    below a bound takes further. -/
structure Stops (bound : Nat) (rest : List Token) : Prop where
  dot : front rest ≠ some (.punctuator .dot)
  bracket : front rest ≠ some (.punctuator .openBracket)
  paren : front rest ≠ some (.punctuator .openParen)
  operator : ∀ level : Level, level.rank < bound → operatorOf? level rest = none

namespace Stops

variable {bound : Nat} {rest : List Token} {p : Nat}

theorem of_joins {level : Level} {op : Operator} {left right t : Expr}
    (joins : Joins level op left right t) : Stops level.rank (⟨.operator op, p⟩ :: rest) where
  dot := by simp
  bracket := by simp
  paren := by simp
  operator := by
    intro next tighter
    cases found : operatorOf? next (⟨.operator op, p⟩ :: rest) with
    | none => rfl
    | some taken =>
        obtain ⟨combine', behind⟩ := taken
        obtain ⟨_, _, same, combines⟩ := operatorOf?_eq_some_iff.mp found
        cases same
        cases joins <;> cases next <;> simp [Level.combine?, Level.rank] at combines tighter

theorem of_mark (mark : Punctuator) (h : mark ∉ [.dot, .openBracket, .openParen]) :
    Stops bound (⟨.punctuator mark, p⟩ :: rest) where
  dot := by simp_all
  bracket := by simp_all
  paren := by simp_all
  operator := fun _ _ => rfl

theorem of_finish : Stops bound (⟨.finish, p⟩ :: rest) where
  dot := by simp
  bracket := by simp
  paren := by simp
  operator := fun _ _ => rfl

/-- Where a level stops, its loop ends and so do those of the tighter ones. -/
theorem ends (stops : Stops bound rest) (level : Level) (h : level.rank < bound) (t : Expr) :
    Stops level.rank rest ∧ Reads (parseTail level t rest) t rest where
  left := { stops with operator := fun next tighter => stops.operator next (by omega) }
  right := (reads_parseTail_of_none (stops.operator level h)).mpr ⟨rfl, rfl⟩

theorem reads_access (stops : Stops bound rest) (t : Expr) : Reads (parsePostfix t rest) t rest :=
  reads_parsePostfix.mpr (.inr (.inr ⟨stops.dot, stops.bracket, rfl, rfl⟩))

end Stops

-- The recursion is on the derivation.  A level derives its last operator first
-- and its reader meets it last, so the loops have a statement for any way in
-- which they may go on: it carries the operators that were taken off the end.
mutual

/-- Behind a derivation of a level, its reader goes on as its loop does. -/
theorem Joined.reads_on {level ts rest rest' t t'} : Joined level ts t → Stops level.rank rest →
    Reads (parseTail level t rest) t' rest' → Reads (parseLevel level (ts ++ rest)) t' rest'
  | .operand operand, stops, tail => reads_parseLevel.mpr ⟨_, _, operand.reads stops, tail⟩
  | .join joined operand joins, stops, tail => by
      obtain ⟨combine, combines, rfl⟩ := joins_iff.mp joins
      rw [List.append_assoc, List.cons_append]
      refine joined.reads_on (.of_joins joins) ?_
      rw [reads_parseTail_of_some (operatorOf?_eq_some_iff.mpr ⟨_, _, rfl, combines⟩)]
      exact ⟨_, _, operand.reads stops, tail⟩

theorem Operand.reads {level ts rest t} : Operand level ts t → Stops level.rank rest →
    Reads (parseOperand level (ts ++ rest)) t rest
  | .or joined, stops => by
      obtain ⟨stops, tail⟩ := stops.ends .and (by decide) t
      rw [parseOperand_of_tighter? rfl]
      exact joined.reads_on stops tail
  | .and joined, stops => by
      obtain ⟨stops, tail⟩ := stops.ends .equality (by decide) t
      rw [parseOperand_of_tighter? rfl]
      exact joined.reads_on stops tail
  | .equality joined, stops => by
      obtain ⟨stops, tail⟩ := stops.ends .order (by decide) t
      rw [parseOperand_of_tighter? rfl]
      exact joined.reads_on stops tail
  | .order unary, stops => by
      rw [parseOperand_order]
      exact unary.reads stops

theorem Unary.reads {ts rest t} : Unary ts t → Stops 0 rest →
    Reads (parseUnary (ts ++ rest)) t rest
  | .not unary, stops => reads_parseUnary.mpr (.inl ⟨_, _, _, rfl, unary.reads stops, rfl⟩)
  | .access access, stops => access.reads_on stops.paren (stops.reads_access t)

/-- Behind a derivation of an access, its reader goes on as its loop does. -/
theorem Access.reads_on {ts rest rest' t t'} : Access ts t →
    front rest ≠ some (.punctuator .openParen) → Reads (parsePostfix t rest) t' rest' →
    Reads (parseUnary (ts ++ rest)) t' rest'
  | .primary primary, noParen, further =>
      reads_parseUnary.mpr (.inr ⟨_, _, primary.reads noParen, further⟩)
  | .property access, _, further => by
      rw [List.append_assoc]
      refine access.reads_on (by simp) ?_
      exact reads_parsePostfix.mpr (.inl ⟨_, _, _, _, rfl, further⟩)
  | .index access joined, _, further => by
      obtain ⟨stops, tail⟩ := (Stops.of_mark .closeBracket (by decide)).ends .or (Nat.lt_add_one _) _
      rw [List.append_assoc, List.cons_append, List.append_assoc]
      refine access.reads_on (by simp) ?_
      exact reads_parsePostfix.mpr
        (.inr (.inl ⟨_, _, _, _, _, rfl, joined.reads_on stops tail, further⟩))

theorem Primary.reads {ts rest t} : Primary ts t → front rest ≠ some (.punctuator .openParen) →
    Reads (parsePrimary (ts ++ rest)) t rest
  | .call arguments, _ => by
      rw [List.cons_append, List.cons_append, List.append_assoc]
      exact reads_parsePrimary.mpr (.inl ⟨_, _, _, _, _, rfl, arguments.reads, rfl⟩)
  | .name named, noParen =>
      reads_parsePrimary.mpr (.inr (.inl ⟨_, _, rfl, noParen, named_iff.mp named⟩))
  | .paren joined, _ => by
      obtain ⟨stops, tail⟩ := (Stops.of_mark .closeParen (by decide)).ends .or (Nat.lt_add_one _) t
      rw [List.cons_append, List.append_assoc]
      exact reads_parsePrimary.mpr (.inr (.inr (.inl ⟨_, _, _, rfl, joined.reads_on stops tail⟩)))
  | .string, _ => reads_parsePrimary.mpr (.inr (.inr (.inr (.inl ⟨_, _, rfl, rfl⟩))))
  | .number, _ => reads_parsePrimary.mpr (.inr (.inr (.inr (.inr ⟨_, _, rfl, rfl⟩))))

theorem Arguments.reads {ts rest parameters p} : Arguments ts parameters →
    Reads (parseArguments (ts ++ ⟨.punctuator .closeParen, p⟩ :: rest)) parameters rest
  | .none => reads_parseArguments.mpr (.inl ⟨_, rfl, rfl⟩)
  | .some list => reads_parseArguments.mpr (.inr list.reads)

theorem ArgumentList.reads {ts rest parameters p} : ArgumentList ts parameters →
    Reads (parseArgumentList (ts ++ ⟨.punctuator .closeParen, p⟩ :: rest)) parameters rest
  | .last joined => by
      obtain ⟨stops, tail⟩ := (Stops.of_mark .closeParen (by decide)).ends .or (Nat.lt_add_one _) _
      exact reads_parseArgumentList.mpr (.inr ⟨_, _, joined.reads_on stops tail, rfl⟩)
  | .more joined others => by
      obtain ⟨stops, tail⟩ := (Stops.of_mark .comma (by decide)).ends .or (Nat.lt_add_one _) _
      rw [List.append_assoc, List.cons_append]
      exact reads_parseArgumentList.mpr
        (.inl ⟨_, _, _, _, joined.reads_on stops tail, others.reads, rfl⟩)

end

theorem Joined.reads {level ts t p} (joined : Joined level ts t) :
    Reads (parseLevel level (ts ++ [⟨.finish, p⟩])) t [⟨.finish, p⟩] := by
  obtain ⟨stops, tail⟩ := Stops.of_finish.ends level (Nat.lt_add_one _) t
  exact joined.reads_on stops tail

theorem Joined.unique {level ts t t'} (joined : Joined level ts t) (joined' : Joined level ts t') :
    t = t' :=
  ((joined.reads : Reads _ _ [⟨.finish, 0⟩]).unique joined'.reads).1

/-! ### From the text -/

theorem scan_ne_finish {position count : Nat} {last : Option Lexeme} {c : Char} {rest : List Char}
    {lexeme : Lexeme} (h : scan position last c rest = .ok (lexeme, count)) :
    lexeme ≠ .finish := by
  rintro rfl
  unfold scan at h
  split at h
  · split at h <;> simp at h
  · dsimp only at h
    split at h
    · simp at h
    · split at h
      · simp at h
      · split at h
        · simp at h
        · split at h <;> simp at h

/-- The lexer writes the end once, behind all other tokens. -/
theorem finish_of_lexFrom {position : Nat} {last : Option Lexeme} {cs : List Char}
    {ts : List Token} (h : lexFrom position last cs = .ok ts) :
    ∃ body p, ts = body ++ [⟨.finish, p⟩] ∧ Unfinished body := by
  fun_induction lexFrom position last cs generalizing ts with
  | case1 position =>
      cases h
      exact ⟨[], position, rfl, unfinished_nil⟩
  | case2 _ _ _ _ _ ih => exact ih h
  | case3 => cases h
  | case4 => cases h
  | case5 position last c rest _ lexeme count scanned width tokens lexed =>
      rename_i ih
      cases h
      obtain ⟨body, p, rfl, unfinished⟩ := ih lexed
      exact ⟨⟨lexeme, position⟩ :: body, p, rfl,
        unfinished_cons.mpr ⟨scan_ne_finish scanned, unfinished⟩⟩

theorem tokenize_eq_ok_iff {s : String} {ts : List Token} :
    tokenize s = .ok ts ↔ lex s.toList = .ok ts := by
  unfold tokenize
  split <;> simp_all

theorem parse_eq_ok_iff {s : String} {t : Expr} :
    parse s = .ok t ↔ ∃ ts, tokenize s = .ok ts ∧ ofTokens ts = .ok t := by
  simp only [tokenize_eq_ok_iff]
  unfold parse
  cases lex s.toList with
  | error cause => simp [bind, Except.bind]
  | ok ts =>
      dsimp only [bind, Except.bind]
      cases result : ofTokens ts <;> simp [result]

/-- A text spells a tree: its tokens up to the end derive it. -/
def Spells (s : String) (t : Expr) : Prop :=
  ∃ body p, tokenize s = .ok (body ++ [⟨.finish, p⟩]) ∧ Joined .or body t

theorem parse_eq_ok_iff_spells {s : String} {t : Expr} : parse s = .ok t ↔ Spells s t := by
  rw [parse_eq_ok_iff]
  constructor
  · rintro ⟨ts, tokenized, h⟩
    obtain ⟨rest, reads, done⟩ := ofTokens_eq_ok_iff.mp h
    obtain ⟨pre, whole, derived⟩ := joined_of_reads reads
    obtain ⟨body, p, rfl, unfinished⟩ := finish_of_lexFrom (tokenize_eq_ok_iff.mp tokenized)
    rcases done with rfl | done
    · -- a derivation cannot have taken the end
      have impossible := derived.unfinished
      simp only [List.append_nil] at whole
      simp [← whole] at impossible
    · obtain ⟨p', rest, rfl⟩ := front_eq_some_iff.mp done
      obtain ⟨rfl, -⟩ := unfinished.eq_of_append derived.unfinished whole
      exact ⟨body, p, tokenized, derived⟩
  · rintro ⟨body, p, tokenized, derived⟩
    exact ⟨_, tokenized, ofTokens_eq_ok_iff.mpr ⟨_, derived.reads, .inr rfl⟩⟩

/-- The parser accepts its grammar and nothing else: it returns the tree that
    a text spells, and fails with an error that names the text when it spells
    none. -/
theorem parse_accepts (s : String) :
    (∀ t, parse s = .ok t ↔ Spells s t) ∧
      ((∃ cause, parse s = .error ⟨s, cause⟩) ↔ ∀ t, ¬ Spells s t) := by
  refine ⟨fun t => parse_eq_ok_iff_spells, ?_⟩
  simp only [← parse_eq_ok_iff_spells]
  unfold parse
  split <;> simp

example : parse "a || True(b) || NULL" =
    .ok (.logical .or (.logical .or (.context "a") (.call "true" [.context "b"]))
      (.literal .null)) := by
  cbv

end JobMatrix.Expr
