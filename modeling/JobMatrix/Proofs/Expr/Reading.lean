import JobMatrix.Expr.Parser

/-! # What the readers do

Each reader of the parser, said once: which tokens it takes for which tree, and
which tokens it leaves.  A reader carries a bound on the tokens it leaves, which
these statements leave aside.
-/

namespace JobMatrix.Expr

def Reads {α : Type} {bound : Nat} (r : Except Cause (Parsed α bound)) (value : α)
    (rest : List Token) : Prop :=
  ∃ fewer, r = .ok ⟨value, rest, fewer⟩

section Reads

variable {α β : Type} {bound bound' : Nat} {value : α} {rest : List Token}

theorem Reads.fewer {r : Except Cause (Parsed α bound)} (h : Reads r value rest) :
    rest.length < bound :=
  h.1

theorem Reads.unique {r : Except Cause (Parsed α bound)} {value' : α} {rest' : List Token}
    (h : Reads r value rest) (h' : Reads r value' rest') : value = value' ∧ rest = rest' := by
  obtain ⟨_, rfl⟩ := h
  obtain ⟨_, same⟩ := h'
  cases same
  exact ⟨rfl, rfl⟩

theorem reads_pure {value' : α} {rest' : List Token} {fewer : rest.length < bound} :
    Reads (pure ⟨value, rest, fewer⟩ : Except Cause (Parsed α bound)) value' rest' ↔
      value' = value ∧ rest' = rest := by
  constructor
  · rintro ⟨_, same⟩
    cases same
    exact ⟨rfl, rfl⟩
  · rintro ⟨rfl, rfl⟩
    exact ⟨fewer, rfl⟩

theorem not_reads_throw {cause : Cause} :
    ¬ Reads (throw cause : Except Cause (Parsed α bound)) value rest := by
  rintro ⟨_, impossible⟩
  cases impossible

theorem reads_bind {r : Except Cause (Parsed β bound')}
    {next : Parsed β bound' → Except Cause (Parsed α bound)} :
    Reads (r >>= next) value rest ↔
      ∃ first mid, ∃ h : Reads r first mid, Reads (next ⟨first, mid, h.fewer⟩) value rest := by
  cases r with
  | error cause =>
      constructor
      · rintro ⟨_, impossible⟩
        cases impossible
      · rintro ⟨_, _, ⟨_, impossible⟩, -⟩
        cases impossible
  | ok parsed =>
      obtain ⟨first, mid, fewer⟩ := parsed
      constructor
      · exact fun reads => ⟨first, mid, ⟨fewer, rfl⟩, reads⟩
      · rintro ⟨_, _, ⟨_, same⟩, reads⟩
        cases same
        exact reads

end Reads

def front (ts : List Token) : Option Lexeme :=
  ts.head?.map Token.lexeme

@[simp]
theorem front_cons (token : Token) (ts : List Token) : front (token :: ts) = some token.lexeme :=
  rfl

theorem front_eq_some_iff {ts : List Token} {lexeme : Lexeme} :
    front ts = some lexeme ↔ ∃ position behind, ts = ⟨lexeme, position⟩ :: behind := by
  cases ts with
  | nil => simp [front]
  | cons token ts =>
      obtain ⟨lexeme', position⟩ := token
      simp

theorem front_ne {ts : List Token} {lexeme : Lexeme}
    (h : ∀ position behind, ts = ⟨lexeme, position⟩ :: behind → False) :
    front ts ≠ some lexeme := by
  intro same
  obtain ⟨position, behind, rfl⟩ := front_eq_some_iff.mp same
  exact h position behind rfl

variable {level : Level} {ts rest : List Token} {t : Expr}

theorem reads_expect {mark : Punctuator} {u : Unit} :
    Reads (expect mark ts) u rest ↔ ∃ position, ts = ⟨.punctuator mark, position⟩ :: rest := by
  unfold expect
  split
  · simp [Reads]
  · rename_i lexeme position behind
    split
    · rename_i same
      refine reads_pure.trans ?_
      simp [same, eq_comm]
    · rename_i other
      simp [Reads, other]

theorem reads_parseLevel :
    Reads (parseLevel level ts) t rest ↔
      ∃ first mid, Reads (parseOperand level ts) first mid ∧
        Reads (parseTail level first mid) t rest := by
  rw [parseLevel]
  simp only [reads_bind, reads_pure]
  simp

theorem Level.eq_order_of_tighter? (h : level.tighter? = none) : level = .order := by
  cases level with
  | order => rfl
  | or | and | equality => cases h

theorem parseOperand_of_tighter? {next : Level} (h : level.tighter? = some next)
    (ts : List Token) : parseOperand level ts = parseLevel next ts := by
  rw [parseOperand]
  split <;> simp_all

theorem parseOperand_order (ts : List Token) : parseOperand .order ts = parseUnary ts := by
  rw [parseOperand]
  rfl

theorem reads_parseTail_of_some {left : Expr} {behind : List Token} {combine : Expr → Expr → Expr}
    (h : operatorOf? level ts = some (combine, behind)) :
    Reads (parseTail level left ts) t rest ↔
      ∃ right mid, Reads (parseOperand level behind) right mid ∧
        Reads (parseTail level (combine left right) mid) t rest := by
  rw [parseTail]
  split
  · rename_i h'
    rw [h] at h'
    cases h'
    simp only [reads_bind, reads_pure]
    simp
  · simp_all

theorem reads_parseTail_of_none {left : Expr} (h : operatorOf? level ts = none) :
    Reads (parseTail level left ts) t rest ↔ t = left ∧ rest = ts := by
  rw [parseTail]
  split
  · simp_all
  · exact reads_pure

theorem reads_parsePrimary :
    Reads (parsePrimary ts) t rest ↔
      (∃ name p p' inner parameters,
        ts = ⟨.identifier name, p⟩ :: ⟨.punctuator .openParen, p'⟩ :: inner ∧
        Reads (parseArguments inner) parameters rest ∧
        t = .call (Text.toLower name) parameters) ∨
      (∃ name p, ts = ⟨.identifier name, p⟩ :: rest ∧
        front rest ≠ some (.punctuator .openParen) ∧ t = ofName name) ∨
      (∃ p p' inner, ts = ⟨.punctuator .openParen, p⟩ :: inner ∧
        Reads (parseLevel .or inner) t (⟨.punctuator .closeParen, p'⟩ :: rest)) ∨
      (∃ value p, ts = ⟨.string value, p⟩ :: rest ∧ t = .literal (.string value)) ∨
      (∃ text p, ts = ⟨.number text, p⟩ :: rest ∧
        t = .literal (.number (Number.ofText text))) := by
  constructor
  · intro reads
    rw [parsePrimary.eq_def] at reads
    split at reads
    · exact absurd reads not_reads_throw
    · exact absurd reads not_reads_throw
    · split at reads
      · simp only [reads_bind, reads_pure] at reads
        obtain ⟨parameters, _, inside, rfl, rfl⟩ := reads
        exact .inl ⟨_, _, _, _, _, rfl, inside, rfl⟩
      · rename_i other
        obtain ⟨rfl, rfl⟩ := reads_pure.mp reads
        exact .inr (.inl ⟨_, _, rfl, front_ne other, rfl⟩)
    · simp only [reads_bind, reads_pure, reads_expect] at reads
      obtain ⟨inner, _, inside, _, _, ⟨position, rfl⟩, rfl, rfl⟩ := reads
      exact .inr (.inr (.inl ⟨_, _, _, rfl, inside⟩))
    · exact absurd reads not_reads_throw
    · obtain ⟨rfl, rfl⟩ := reads_pure.mp reads
      simp
    · obtain ⟨rfl, rfl⟩ := reads_pure.mp reads
      simp
    · exact absurd reads not_reads_throw
  · rintro (⟨_, _, _, _, _, rfl, inside, rfl⟩ | ⟨_, _, rfl, other, rfl⟩ | ⟨_, _, _, rfl, inside⟩ |
      ⟨_, _, rfl, rfl⟩ | ⟨_, _, rfl, rfl⟩)
    · rw [parsePrimary]
      simp only [reads_bind, reads_pure]
      exact ⟨_, _, inside, rfl, rfl⟩
    · rw [parsePrimary.eq_def]
      dsimp only
      split
      · simp at other
      · simp only [reads_pure, and_self]
    · rw [parsePrimary]
      simp only [reads_bind, reads_pure, reads_expect]
      exact ⟨_, _, inside, (), _, ⟨_, rfl⟩, rfl, rfl⟩
    · rw [parsePrimary]
      simp only [reads_pure, and_self]
    · rw [parsePrimary]
      simp only [reads_pure, and_self]

theorem reads_parsePostfix {object : Expr} :
    Reads (parsePostfix object ts) t rest ↔
      (∃ p p' name behind,
        ts = ⟨.punctuator .dot, p⟩ :: ⟨.identifier name, p'⟩ :: behind ∧
        Reads (parsePostfix (.index object (.literal (.string name))) behind) t rest) ∨
      (∃ p p' inner key behind, ts = ⟨.punctuator .openBracket, p⟩ :: inner ∧
        Reads (parseLevel .or inner) key (⟨.punctuator .closeBracket, p'⟩ :: behind) ∧
        Reads (parsePostfix (.index object key) behind) t rest) ∨
      (front ts ≠ some (.punctuator .dot) ∧ front ts ≠ some (.punctuator .openBracket) ∧
        t = object ∧ rest = ts) := by
  constructor
  · intro reads
    rw [parsePostfix.eq_def] at reads
    split at reads
    · split at reads
      · simp only [reads_bind, reads_pure] at reads
        obtain ⟨_, _, further, rfl, rfl⟩ := reads
        exact .inl ⟨_, _, _, _, rfl, further⟩
      · exact absurd reads not_reads_throw
    · simp only [reads_bind, reads_pure, reads_expect] at reads
      obtain ⟨key, _, inside, _, behind, ⟨position, rfl⟩, _, _, further, rfl, rfl⟩ := reads
      exact .inr (.inl ⟨_, _, _, _, _, rfl, inside, further⟩)
    · rename_i noDot noBracket
      exact .inr (.inr ⟨front_ne noDot, front_ne noBracket, reads_pure.mp reads⟩)
  · rintro (⟨_, _, _, _, rfl, further⟩ | ⟨_, _, _, _, _, rfl, inside, further⟩ |
      ⟨noDot, noBracket, rfl, rfl⟩)
    · rw [parsePostfix]
      simp only [reads_bind, reads_pure]
      exact ⟨_, _, further, rfl, rfl⟩
    · rw [parsePostfix]
      simp only [reads_bind, reads_pure, reads_expect]
      exact ⟨_, _, inside, (), _, ⟨_, rfl⟩, _, _, further, rfl, rfl⟩
    · rw [parsePostfix.eq_def]
      split
      · simp at noDot
      · simp at noBracket
      · exact reads_pure.mpr ⟨rfl, rfl⟩

theorem reads_parseUnary :
    Reads (parseUnary ts) t rest ↔
      (∃ p behind operand, ts = ⟨.operator .not, p⟩ :: behind ∧
        Reads (parseUnary behind) operand rest ∧ t = .not operand) ∨
      ∃ first mid, Reads (parsePrimary ts) first mid ∧ Reads (parsePostfix first mid) t rest := by
  constructor
  · intro reads
    rw [parseUnary.eq_def] at reads
    split at reads
    · simp only [reads_bind, reads_pure] at reads
      obtain ⟨operand, _, inside, rfl, rfl⟩ := reads
      exact .inl ⟨_, _, _, rfl, inside, rfl⟩
    · simp only [reads_bind, reads_pure] at reads
      obtain ⟨first, mid, primary, _, _, further, rfl, rfl⟩ := reads
      exact .inr ⟨_, _, primary, further⟩
  · rintro (⟨_, _, _, rfl, inside, rfl⟩ | ⟨_, _, primary, further⟩)
    · rw [parseUnary]
      simp only [reads_bind, reads_pure]
      exact ⟨_, _, inside, rfl, rfl⟩
    · rw [parseUnary.eq_def]
      split
      · simp [reads_parsePrimary] at primary
      · simp only [reads_bind, reads_pure]
        exact ⟨_, _, primary, _, _, further, rfl, rfl⟩

theorem reads_parseArgumentList {parameters : List Expr} :
    Reads (parseArgumentList ts) parameters rest ↔
      (∃ p first inner others, Reads (parseLevel .or ts) first (⟨.punctuator .comma, p⟩ :: inner) ∧
        Reads (parseArgumentList inner) others rest ∧ parameters = first :: others) ∨
      (∃ p first, Reads (parseLevel .or ts) first (⟨.punctuator .closeParen, p⟩ :: rest) ∧
        parameters = [first]) := by
  rw [parseArgumentList.eq_def]
  simp only [reads_bind]
  constructor
  · rintro ⟨first, mid, inside, reads⟩
    split at reads
    · simp only [reads_bind, reads_pure] at reads
      obtain ⟨others, _, further, rfl, rfl⟩ := reads
      exact .inl ⟨_, _, _, _, inside, further, rfl⟩
    · simp only [reads_bind, reads_pure, reads_expect] at reads
      obtain ⟨_, _, ⟨position, rfl⟩, rfl, rfl⟩ := reads
      exact .inr ⟨_, _, inside, rfl⟩
  · rintro (⟨_, _, _, _, inside, further, rfl⟩ | ⟨_, _, inside, rfl⟩)
    · refine ⟨_, _, inside, ?_⟩
      simp only [reads_bind, reads_pure]
      exact ⟨_, _, further, rfl, rfl⟩
    · refine ⟨_, _, inside, ?_⟩
      simp only [reads_bind, reads_pure, reads_expect]
      exact ⟨(), _, ⟨_, rfl⟩, trivial, rfl⟩

theorem front_of_reads_parseUnary (h : Reads (parseUnary ts) t rest) :
    front ts ≠ some (.punctuator .closeParen) := by
  rcases reads_parseUnary.mp h with ⟨_, _, _, rfl, -, -⟩ | ⟨first, mid, primary, -⟩
  · simp
  · rcases reads_parsePrimary.mp primary with ⟨_, _, _, _, _, rfl, -⟩ | ⟨_, _, rfl, -⟩ |
      ⟨_, _, _, rfl, -⟩ | ⟨_, _, rfl, -⟩ | ⟨_, _, rfl, -⟩ <;> simp

theorem front_of_reads_parseLevel {level : Level} {ts rest : List Token} {t : Expr}
    (h : Reads (parseLevel level ts) t rest) : front ts ≠ some (.punctuator .closeParen) := by
  obtain ⟨first, mid, operand, -⟩ := reads_parseLevel.mp h
  cases tighter : level.tighter? with
  | some next =>
      have := Level.rank_lt_of_tighter? tighter
      rw [parseOperand_of_tighter? tighter] at operand
      exact front_of_reads_parseLevel operand
  | none =>
      obtain rfl := Level.eq_order_of_tighter? tighter
      rw [parseOperand_order] at operand
      exact front_of_reads_parseUnary operand
termination_by level.rank

theorem reads_parseArguments {parameters : List Expr} :
    Reads (parseArguments ts) parameters rest ↔
      (∃ p, ts = ⟨.punctuator .closeParen, p⟩ :: rest ∧ parameters = []) ∨
      Reads (parseArgumentList ts) parameters rest := by
  constructor
  · intro reads
    rw [parseArguments.eq_def] at reads
    split at reads
    · obtain ⟨rfl, rfl⟩ := reads_pure.mp reads
      exact .inl ⟨_, rfl, rfl⟩
    · exact .inr reads
  · rintro (⟨p, rfl, rfl⟩ | reads)
    · rw [parseArguments]
      exact reads_pure.mpr ⟨rfl, rfl⟩
    · have noClose : front ts ≠ some (.punctuator .closeParen) := by
        rcases reads_parseArgumentList.mp reads with ⟨_, _, _, _, inside, -⟩ | ⟨_, _, inside, -⟩
        · exact front_of_reads_parseLevel inside
        · exact front_of_reads_parseLevel inside
      rw [parseArguments.eq_def]
      split
      · simp at noClose
      · exact reads

theorem ofTokens_eq_ok_iff :
    ofTokens ts = .ok t ↔
      ∃ rest, Reads (parseLevel .or ts) t rest ∧ (rest = [] ∨ front rest = some .finish) := by
  unfold ofTokens
  constructor
  · intro h
    cases read : parseLevel .or ts with
    | error cause =>
        rw [read] at h
        cases h
    | ok parsed =>
        obtain ⟨root, rest, fewer⟩ := parsed
        rw [read] at h
        dsimp only [bind, Except.bind] at h
        split at h
        · cases h
          exact ⟨_, ⟨fewer, rfl⟩, .inl rfl⟩
        · cases h
          exact ⟨_, ⟨fewer, rfl⟩, .inr rfl⟩
        · cases h
  · rintro ⟨rest, ⟨fewer, read⟩, done⟩
    rw [read]
    dsimp only [bind, Except.bind]
    split
    · rfl
    · rfl
    · rename_i token behind _ other
      obtain done := done.resolve_left (List.cons_ne_nil _ _)
      obtain ⟨p, _, same⟩ := front_eq_some_iff.mp done
      cases same
      exact (other p rfl).elim

end JobMatrix.Expr
