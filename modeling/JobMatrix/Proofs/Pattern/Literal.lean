import JobMatrix.Pattern.JobPattern
import JobMatrix.Pattern.Parser

/-! # Plain ids as patterns

A plain id is read as the regular expression of its own symbols, whatever
characters it has: those with a meaning of their own are escaped, and no other
one opens a group or repeats what stands before it.
-/

namespace JobMatrix.Pattern

def Regex.ofCodes : List Nat → Regex
  | [] => .nothing
  | [n] => .symbol n
  | n :: more => .both (.symbol n) (ofCodes more)

def Regex.upToEnd : List Char → Regex
  | [] => .both .finish .nothing
  | c :: rest => .both (ofCodes (Text.charUnits c)) (upToEnd rest)

/-- A whole text that stands for itself. -/
def Regex.literal (cs : List Char) : Regex :=
  .both .start (upToEnd cs)

def Dialect.plain : Dialect :=
  ⟨Flags.caseless, []⟩

/-! ## What is escaped -/

/-- Whether a character stands for itself without a backslash. -/
def IsPlain (c : Char) : Prop :=
  isSpecial c = false ∨ c = '/'

theorem literally_cons_plain {c : Char} (plain : IsPlain c) (cs : List Char) :
    literally (c :: cs) = c :: literally cs := by
  rw [literally, List.flatMap_cons, if_neg]
  · rfl
  · rcases plain with plain | rfl <;> simp [*]

theorem isSpecial_of_not_plain {c : Char} (special : ¬ IsPlain c) : isSpecial c = true := by
  cases marked : isSpecial c with
  | true => rfl
  | false => exact absurd (.inl marked) special

theorem literally_cons_special {c : Char} (special : ¬ IsPlain c) (cs : List Char) :
    literally (c :: cs) = '\\' :: c :: literally cs := by
  rw [literally, List.flatMap_cons, if_pos]
  · rfl
  · have other : c ≠ '/' := fun same => special (.inr same)
    simp [isSpecial_of_not_plain special, other]

theorem length_le_literally (cs : List Char) : cs.length ≤ (literally cs).length := by
  induction cs with
  | nil => exact Nat.le_refl 0
  | cons c cs ih =>
      by_cases plain : IsPlain c
      · rw [literally_cons_plain plain]
        exact Nat.succ_le_succ ih
      · rw [literally_cons_special plain]
        exact Nat.le_succ_of_le (Nat.succ_le_succ ih)

/-- Nothing of a plain id opens a group. -/
theorem groupsOf_literally (cs : List Char) : groupsOf false (literally cs ++ ['$']) = [] := by
  induction cs with
  | nil => rfl
  | cons c cs ih =>
      by_cases plain : IsPlain c
      · rw [literally_cons_plain plain, List.cons_append]
        unfold groupsOf
        split <;> simp_all [IsPlain, isSpecial]
      · rw [literally_cons_special plain, List.cons_append, List.cons_append, groupsOf]
        exact ih

/-! ## Terms -/

theorem quantifier?_literally (d : Dialect) (cs : List Char) :
    quantifier? d (literally cs ++ ['$']) = some (none, literally cs ++ ['$']) := by
  cases cs with
  | nil => rfl
  | cons c cs =>
      by_cases plain : IsPlain c
      · rw [literally_cons_plain plain, List.cons_append]
        unfold quantifier?
        split <;> simp_all [IsPlain, isSpecial]
      · rw [literally_cons_special plain]
        rfl

theorem symbols?_literally (d : Dialect) (group : Nat) (cs : List Char) (codes : List Nat) :
    symbols? d group (literally cs ++ ['$']) codes =
      some (Regex.ofCodes codes, literally cs ++ ['$']) := by
  induction codes with
  | nil => rfl
  | cons n more ih =>
      cases more with
      | nil => simp [symbols?, quantified?, quantifier?_literally, Regex.ofCodes]
      | cons m more => simp [symbols?, ih, Regex.ofCodes]

theorem groupNumber?_plain (cs : List Char) : groupNumber? .plain cs = none := by
  unfold groupNumber?
  split
  · next n read =>
      rw [if_neg]
      simp only [Dialect.plain, List.length_nil, Bool.and_eq_true, decide_eq_true_eq]
      rintro ⟨⟨-, positive⟩, bound⟩
      exact absurd (of_decide_eq_true bound) (Nat.not_le.mpr positive)
  · rfl

theorem escape?_special {c : Char} (special : isSpecial c = true) (group : Nat) (cs : List Char) :
    escape? .plain group (c :: cs) = symbols? .plain group cs (Text.charUnits c) := by
  simp only [isSpecial, List.mem_cons, List.not_mem_nil, or_false, decide_eq_true_eq] at special
  rcases special with rfl | rfl | rfl | rfl | rfl | rfl | rfl | rfl | rfl | rfl | rfl | rfl | rfl |
    rfl | rfl <;>
  · unfold escape?
    simp only [shorthand?, groupNumber?_plain]
    rfl

theorem simpleTerm?_plain {c : Char} (plain : IsPlain c) (group : Nat) (cs : List Char) :
    simpleTerm? .plain group (c :: cs) = symbols? .plain group cs (Text.charUnits c) := by
  rcases plain with ordinary | rfl
  · simp only [isSpecial, List.mem_cons, List.not_mem_nil, or_false, decide_eq_false_iff_not,
      not_or] at ordinary
    unfold simpleTerm?
    split <;> simp_all [Dialect.codes, Dialect.isStrict, Dialect.plain, Flags.wholeChars,
      Flags.caseless, Flags.none]
  · rfl

theorem term?_literally (c : Char) (cs : List Char) (fuel group : Nat) :
    term? .plain (fuel + 1) group (literally (c :: cs) ++ ['$']) =
      some (Regex.ofCodes (Text.charUnits c), group, literally cs ++ ['$']) := by
  by_cases plain : IsPlain c
  · rw [literally_cons_plain plain, List.cons_append, term?, simpleTerm?_plain plain,
      symbols?_literally]
    · rfl
    · rintro rest ⟨rfl, -⟩
      revert plain
      simp [IsPlain, isSpecial]
  · rw [literally_cons_special plain, List.cons_append, List.cons_append, term?, simpleTerm?,
      escape?_special (isSpecial_of_not_plain plain), symbols?_literally]
    · rfl
    · nofun

/-- The front of a plain id neither ends a sequence nor opens a group. -/
theorem literally_front (c : Char) (cs : List Char) : ∃ first more,
    literally (c :: cs) ++ ['$'] = first :: more ∧ first ≠ '|' ∧ first ≠ ')' := by
  by_cases plain : IsPlain c
  · rw [literally_cons_plain plain]
    refine ⟨c, literally cs ++ ['$'], rfl, ?_, ?_⟩ <;>
    · rintro rfl
      revert plain
      simp [IsPlain, isSpecial]
  · rw [literally_cons_special plain]
    exact ⟨'\\', c :: (literally cs ++ ['$']), rfl, nofun, nofun⟩

theorem sequence?_of_term? {d : Dialect} {fuel group next : Nat} {first : Char}
    {more rest : List Char} {part : Regex}
    (read : term? d fuel group (first :: more) = some (part, next, rest))
    (noChoice : first ≠ '|') (noClose : first ≠ ')') :
    sequence? d (fuel + 1) group (first :: more) =
      (sequence? d fuel next rest).map
        fun (more, group, rest) => (.both part more, group, rest) := by
  rw [sequence?, read]
  · cases after : sequence? d fuel next rest <;> simp [after]
  · nofun
  · rintro tail ⟨rfl, -⟩
    exact noChoice rfl
  · rintro tail ⟨rfl, -⟩
    exact noClose rfl

theorem sequence?_literally (cs : List Char) (fuel group : Nat) :
    sequence? .plain (fuel + cs.length + 2) group (literally cs ++ ['$']) =
      some (Regex.upToEnd cs, group, []) := by
  induction cs with
  | nil => rfl
  | cons c cs ih =>
      have read := term?_literally c cs (fuel + cs.length + 1) group
      obtain ⟨first, more, front, noChoice, noClose⟩ := literally_front c cs
      rw [front] at read ⊢
      exact (sequence?_of_term? read noChoice noClose).trans (by rw [ih]; rfl)

/-- **A plain id is a pattern.**  It is read as the expression of its own
    symbols from the start of a text to its end. -/
theorem parse?_literally (cs : List Char) :
    Regex.parse? .caseless (String.ofList ('^' :: (literally cs ++ ['$']))) =
      some (Regex.literal cs) := by
  have dialect : Dialect.of .caseless ('^' :: (literally cs ++ ['$'])) = .plain := by
    rw [Dialect.of, groupsOf, groupsOf_literally]
    · rfl
    all_goals nofun
  obtain ⟨fuel, enough⟩ : ∃ fuel,
      4 * (('^' :: (literally cs ++ ['$'])).length + 1) = fuel + cs.length + 2 + 1 + 1 := by
    have bound := length_le_literally cs
    refine ⟨4 * (('^' :: (literally cs ++ ['$'])).length + 1) - (cs.length + 4), ?_⟩
    simp only [List.length_cons, List.length_append, List.length_nil]
    omega
  have start : term? .plain (fuel + cs.length + 2) 1 ('^' :: (literally cs ++ ['$'])) =
      some (.start, 1, literally cs ++ ['$']) := rfl
  have whole := sequence?_of_term? start (by decide) (by decide)
  rw [sequence?_literally] at whole
  unfold Regex.parse?
  simp only [String.toList_ofList, dialect, enough, choice?, whole]
  rfl

/-! ## Plain ids -/

/-- Whether a text is no regular expression between slashes. -/
def IsPlainId (input : List Char) : Prop :=
  ¬ ∃ body letters, input = '/' :: (body ++ '/' :: letters)

theorem isPlainId_cons {c : Char} (other : c ≠ '/') (cs : List Char) : IsPlainId (c :: cs) := by
  rintro ⟨body, letters, same⟩
  exact other (List.cons.inj same).1

theorem reading_plain {input : List Char} (plain : IsPlainId input) :
    reading input = ('^' :: (literally input ++ ['$']), ['i']) := by
  unfold reading
  split
  · next rest =>
      split
      · next body letters found =>
          unfold Text.breakLast? at found
          split at found
          · next after before cut =>
              have mirrored := congrArg List.reverse (Text.breakAt?_eq_some cut)
              refine absurd ⟨before.reverse, after.reverse, congrArg _ ?_⟩ plain
              simpa using mirrored
          · cases found
      · rfl
  · rfl

namespace JobPattern

def literal (input : List Char) : JobPattern :=
  ⟨String.ofList ('^' :: (literally input ++ ['$'])), .caseless, .literal input⟩

theorem ofChars?_plain {input : List Char} (plain : IsPlainId input) :
    ofChars? input = some (literal input) := by
  have flags : Flags.ofChars? ['i'] = some .caseless := rfl
  simp only [ofChars?, reading_plain plain, flags, Option.bind_eq_bind, Option.bind_some,
    parse?_literally]
  rfl

end JobPattern

end JobMatrix.Pattern
