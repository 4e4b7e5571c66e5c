import JobMatrix.Expr.Lexer

/-! # What a scan takes

The written forms of lexemes, with no lexer in sight.  A scan takes the written
form of a well-formed lexeme, it takes the whole of it, and it stops in front of
every character that continues no lexeme.
-/

namespace JobMatrix.Expr

open JobMatrix.Number (isDigit)

/-! ### Written forms -/

def IsDigits (cs : List Char) : Prop :=
  cs ≠ [] ∧ ∀ c ∈ cs, isDigit c = true

inductive IsName : List Char → Prop
  | mk {c rest} : isNameStart c = true → (∀ d ∈ rest, isNamePart d = true) → IsName (c :: rest)

inductive IsFraction : List Char → Prop
  | none : IsFraction []
  | some {digits} : IsDigits digits → IsFraction ('.' :: digits)

inductive IsExponent : List Char → Prop
  | none : IsExponent []
  | some {mark sign digits} : mark = 'e' ∨ mark = 'E' → sign = [] ∨ sign = ['+'] ∨ sign = ['-'] →
      IsDigits digits → IsExponent (mark :: (sign ++ digits))

inductive IsNumeral : List Char → Prop
  | mk {sign whole fraction exponent} : sign = [] ∨ sign = ['-'] → IsDigits whole →
      IsFraction fraction → IsExponent exponent →
      IsNumeral (sign ++ whole ++ fraction ++ exponent)

/-- A lexeme that can be written: a quoted text has no bounds, a name and a
    numeral have their forms, and the end of a text is not written. -/
inductive Lexeme.WellFormed : Lexeme → Prop
  | identifier {name : String} : IsName name.toList → WellFormed (.identifier name)
  | number {text : String} : IsNumeral text.toList → WellFormed (.number text)
  | string {value : String} : WellFormed (.string value)
  | operator {op : Operator} : WellFormed (.operator op)
  | punctuator {mark : Punctuator} : WellFormed (.punctuator mark)

def Lexeme.IsNegative : Lexeme → Prop
  | .number text => text.toList.head? = some '-'
  | _ => False

/-- A character that continues no lexeme in front of it. -/
structure Separates (b : Char) : Prop where
  part : isNamePart b = false
  mark : b ∉ ['.', '+', '\'', '=', '&', '|']

/-! ### Runs of characters -/

section Runs

variable {p : Char → Bool} {b : Char} {run rest xs ys : List Char}

theorem takeWhile_all (inside : ∀ c ∈ run, p c = true) : run.takeWhile p = run := by
  have : (run ++ []).takeWhile p = run ++ [].takeWhile p := List.takeWhile_append_of_pos inside
  simpa using this

theorem takeWhile_run (inside : ∀ c ∈ run, p c = true) (stop : ∀ c ∈ rest.head?, p c = false) :
    (run ++ rest).takeWhile p = run := by
  rw [List.takeWhile_append_of_pos inside]
  cases rest with
  | nil => simp
  | cons c rest => simp [stop c rfl]

theorem takeWhile_append_cons (stop : p b = false) :
    (xs ++ b :: ys).takeWhile p = xs.takeWhile p := by
  induction xs with
  | nil => simp [stop]
  | cons c xs ih => simp [List.takeWhile_cons, ih]

theorem prefix_append_of_drop (first : run <+: xs) (second : rest <+: xs.drop run.length) :
    run ++ rest <+: xs := by
  obtain ⟨behind, rfl⟩ := first
  rw [List.drop_left] at second
  exact (List.prefix_append_right_inj run).mpr second

end Runs

/-! ### Names and numerals -/

variable {b : Char} {cs ys : List Char}

theorem Separates.digit (h : Separates b) : isDigit b = false := by
  have := h.part
  simp_all [isNamePart]

theorem Separates.start (h : Separates b) : isNameStart b = false := by
  have := h.part
  simp_all [isNamePart]

theorem Separates.ne_dash (h : Separates b) : b ≠ '-' := by
  have := h.part
  simp_all [isNamePart]

theorem isDigits_takeWhile (h : cs.takeWhile isDigit ≠ []) : IsDigits (cs.takeWhile isDigit) :=
  ⟨h, List.all_eq_true.mp List.all_takeWhile⟩

theorem nameText_cons {c : Char} :
    nameText (c :: cs) = if isNameStart c then c :: cs.takeWhile isNamePart else [] :=
  rfl

theorem nameText_prefix : nameText cs <+: cs := by
  cases cs with
  | nil => exact List.nil_prefix
  | cons c rest =>
      rw [nameText_cons]
      split
      · exact (List.prefix_cons_inj c).mpr (List.takeWhile_prefix _)
      · exact List.nil_prefix

theorem isName_nameText (h : nameText cs ≠ []) : IsName (nameText cs) := by
  cases cs with
  | nil => exact absurd rfl h
  | cons c rest =>
      rw [nameText_cons] at h ⊢
      split at h
      · next start =>
          rw [if_pos start]
          exact .mk start (List.all_eq_true.mp List.all_takeWhile)
      · exact absurd rfl h

theorem nameText_of_isName (h : IsName cs) : nameText cs = cs := by
  obtain @⟨c, rest, start, parts⟩ := h
  rw [nameText_cons, if_pos start, takeWhile_all parts]

theorem nameText_append (h : Separates b) : nameText (cs ++ b :: ys) = nameText cs := by
  cases cs with
  | nil => simp [nameText, h.start]
  | cons c rest => simp [nameText, takeWhile_append_cons h.part]

theorem fractionText_prefix : fractionText cs <+: cs := by
  unfold fractionText
  split
  · dsimp only
    split
    · exact List.nil_prefix
    · exact (List.prefix_cons_inj '.').mpr (List.takeWhile_prefix _)
  · exact List.nil_prefix

theorem isFraction_fractionText : IsFraction (fractionText cs) := by
  unfold fractionText
  split
  · dsimp only
    split
    · exact .none
    · next digits => exact .some (isDigits_takeWhile (by simpa using digits))
  · exact .none

theorem fractionText_append (h : Separates b) : fractionText (cs ++ b :: ys) = fractionText cs := by
  cases cs with
  | nil =>
      have : b ≠ '.' := by
        rintro rfl
        exact absurd h.mark (by decide)
      unfold fractionText
      split
      · simp_all
      · rfl
  | cons c rest =>
      by_cases dot : c = '.'
      · subst dot
        simp [fractionText, takeWhile_append_cons h.digit]
      · unfold fractionText
        split <;> simp_all

theorem signText_prefix : signText cs <+: cs := by
  unfold signText
  split <;> simp

theorem signText_cases : signText cs = [] ∨ signText cs = ['+'] ∨ signText cs = ['-'] := by
  unfold signText
  split <;> simp

theorem signText_append (h : Separates b) : signText (cs ++ b :: ys) = signText cs := by
  cases cs with
  | nil =>
      have : b ≠ '+' := by
        rintro rfl
        exact absurd h.mark (by decide)
      have := h.ne_dash
      unfold signText
      split <;> simp_all
  | cons c rest =>
      unfold signText
      split <;> simp_all

theorem exponentText_prefix : exponentText cs <+: cs := by
  cases cs with
  | nil => exact List.nil_prefix
  | cons mark rest =>
      unfold exponentText
      dsimp only
      split
      · exact (List.prefix_cons_inj mark).mpr
          (prefix_append_of_drop signText_prefix (List.takeWhile_prefix _))
      · exact List.nil_prefix

theorem isExponent_exponentText : IsExponent (exponentText cs) := by
  cases cs with
  | nil => exact .none
  | cons mark rest =>
      unfold exponentText
      dsimp only
      split
      · next h =>
          simp only [Bool.and_eq_true, Bool.or_eq_true, decide_eq_true_eq, Bool.not_eq_true',
            List.isEmpty_eq_false_iff] at h
          exact .some h.1 signText_cases (isDigits_takeWhile h.2)
      · exact .none

theorem exponentText_append (h : Separates b) : exponentText (cs ++ b :: ys) = exponentText cs := by
  cases cs with
  | nil =>
      have part := h.start
      have : b ≠ 'e' ∧ b ≠ 'E' := by
        constructor <;> rintro rfl <;> exact absurd part (by decide)
      simp [exponentText, this]
  | cons mark rest =>
      have short : (signText rest).length ≤ rest.length := signText_prefix.length_le
      simp only [List.cons_append, exponentText, signText_append h]
      rw [List.drop_append_of_le_length short, takeWhile_append_cons h.digit]

/-- The parts in which the numeral at the front of a text is read. -/
structure NumeralParts (cs sign whole fraction exponent : List Char) : Prop where
  isSign : sign = if cs.head? = some '-' then ['-'] else []
  isWhole : whole = (cs.drop sign.length).takeWhile isDigit
  isFraction : fraction = fractionText (cs.drop (sign ++ whole).length)
  isExponent : exponent = exponentText (cs.drop (sign ++ whole ++ fraction).length)

theorem exists_numeralParts (cs : List Char) :
    ∃ sign whole fraction exponent, NumeralParts cs sign whole fraction exponent :=
  ⟨_, _, _, _, rfl, rfl, rfl, rfl⟩

namespace NumeralParts

variable {sign whole fraction exponent : List Char}

theorem numberText_eq (parts : NumeralParts cs sign whole fraction exponent) :
    numberText cs = if whole = [] then [] else sign ++ whole ++ fraction ++ exponent := by
  obtain ⟨rfl, rfl, rfl, rfl⟩ := parts
  simp only [numberText, List.isEmpty_iff]

theorem sign_cases (parts : NumeralParts cs sign whole fraction exponent) :
    sign = [] ∨ sign = ['-'] := by
  obtain ⟨rfl, -, -, -⟩ := parts
  split <;> simp

theorem sign_prefix (parts : NumeralParts cs sign whole fraction exponent) : sign <+: cs := by
  obtain ⟨rfl, -, -, -⟩ := parts
  cases cs with
  | nil => simp
  | cons c rest => split <;> simp_all

theorem whole_prefix (parts : NumeralParts cs sign whole fraction exponent) :
    sign ++ whole <+: cs :=
  prefix_append_of_drop parts.sign_prefix (parts.isWhole ▸ List.takeWhile_prefix _)

theorem fraction_prefix (parts : NumeralParts cs sign whole fraction exponent) :
    sign ++ whole ++ fraction <+: cs :=
  prefix_append_of_drop parts.whole_prefix (parts.isFraction ▸ fractionText_prefix)

theorem exponent_prefix (parts : NumeralParts cs sign whole fraction exponent) :
    sign ++ whole ++ fraction ++ exponent <+: cs :=
  prefix_append_of_drop parts.fraction_prefix (parts.isExponent ▸ exponentText_prefix)

/-- A character that continues no lexeme adds nothing to any part. -/
theorem append (parts : NumeralParts cs sign whole fraction exponent) (h : Separates b) :
    NumeralParts (cs ++ b :: ys) sign whole fraction exponent where
  isSign := by
    have : (cs ++ b :: ys).head? = some '-' ↔ cs.head? = some '-' := by
      cases cs with
      | nil => simp [h.ne_dash]
      | cons c rest => simp
    simp only [this]
    exact parts.isSign
  isWhole := by
    rw [List.drop_append_of_le_length parts.sign_prefix.length_le, takeWhile_append_cons h.digit]
    exact parts.isWhole
  isFraction := by
    rw [List.drop_append_of_le_length parts.whole_prefix.length_le, fractionText_append h]
    exact parts.isFraction
  isExponent := by
    rw [List.drop_append_of_le_length parts.fraction_prefix.length_le, exponentText_append h]
    exact parts.isExponent

end NumeralParts

theorem numberText_append (h : Separates b) : numberText (cs ++ b :: ys) = numberText cs := by
  obtain ⟨_, _, _, _, parts⟩ := exists_numeralParts cs
  rw [parts.numberText_eq, (parts.append h).numberText_eq]

theorem numberText_prefix : numberText cs <+: cs := by
  obtain ⟨_, _, _, _, parts⟩ := exists_numeralParts cs
  rw [parts.numberText_eq]
  split
  · exact List.nil_prefix
  · exact parts.exponent_prefix

theorem isNumeral_numberText (h : numberText cs ≠ []) : IsNumeral (numberText cs) := by
  obtain ⟨_, _, _, _, parts⟩ := exists_numeralParts cs
  rw [parts.numberText_eq] at h ⊢
  split at h
  · exact absurd rfl h
  · next some =>
      rw [if_neg some]
      refine .mk parts.sign_cases ?_ ?_ ?_
      · exact parts.isWhole ▸ isDigits_takeWhile (parts.isWhole ▸ some)
      · exact parts.isFraction ▸ isFraction_fractionText
      · exact parts.isExponent ▸ isExponent_exponentText

/-- No part of a numeral continues into the next one. -/
theorem IsExponent.head (h : IsExponent cs) : ∀ c ∈ cs.head?, c = 'e' ∨ c = 'E' := by
  cases h with
  | none => simp
  | some mark => simpa using mark

theorem IsExponent.head_not_digit (h : IsExponent cs) : ∀ c ∈ cs.head?, isDigit c = false := by
  intro c isHead
  rcases h.head c isHead with rfl | rfl <;> rfl

theorem IsExponent.exponentText_eq (h : IsExponent cs) : exponentText cs = cs := by
  cases h with
  | none => rfl
  | @some mark sign digits isMark isSign isDigits =>
      have sign_eq : signText (sign ++ digits) = sign := by
        obtain ⟨d, digits, rfl⟩ := List.exists_cons_of_ne_nil isDigits.1
        have : isDigit d = true := isDigits.2 d (by simp)
        rcases isSign with rfl | rfl | rfl
        · unfold signText
          split
          · next same => cases same; exact absurd this (by decide)
          · next same => cases same; exact absurd this (by decide)
          · rfl
        · rfl
        · rfl
      simp [exponentText, sign_eq, takeWhile_all isDigits.2, isMark, isDigits.1]

theorem IsFraction.fractionText_append_eq {exponent : List Char} (h : IsFraction cs)
    (h' : IsExponent exponent) : fractionText (cs ++ exponent) = cs := by
  cases h with
  | none =>
      unfold fractionText
      split
      · next same =>
          rw [List.nil_append] at same
          have := h'.head '.' (by simp [same])
          exact absurd this (by decide)
      · rfl
  | @some digits isDigits =>
      simp [fractionText, takeWhile_run isDigits.2 h'.head_not_digit, isDigits.1]

theorem numberText_of_isNumeral (h : IsNumeral cs) : numberText cs = cs := by
  obtain @⟨sign, whole, fraction, exponent, isSign, isWhole, isFraction, isExponent⟩ := h
  have stop : ∀ c ∈ (fraction ++ exponent).head?, isDigit c = false := by
    cases isFraction with
    | none => simpa using isExponent.head_not_digit
    | some => simp; rfl
  have parts : NumeralParts (sign ++ whole ++ fraction ++ exponent) sign whole fraction exponent := by
    refine ⟨?_, ?_, ?_, ?_⟩
    · obtain ⟨d, whole, rfl⟩ := List.exists_cons_of_ne_nil isWhole.1
      have : isDigit d = true := isWhole.2 d (by simp)
      have : d ≠ '-' := by
        rintro rfl
        exact absurd this (by decide)
      rcases isSign with rfl | rfl <;> simp [this]
    · rw [List.append_assoc, List.append_assoc, List.drop_left, takeWhile_run isWhole.2 stop]
    · rw [List.append_assoc _ fraction, List.drop_left, isFraction.fractionText_append_eq isExponent]
    · rw [List.drop_left, isExponent.exponentText_eq]
  rw [parts.numberText_eq, if_neg isWhole.1]

/-! ### Quoted texts and operators -/

def doubled (cs : List Char) : List Char :=
  cs.flatMap fun c => if c = '\'' then ['\'', '\''] else [c]

theorem source_string {value : String} :
    (Lexeme.string value).source = '\'' :: (doubled value.toList ++ ['\'']) :=
  rfl

theorem doubled_cons {c : Char} (h : c ≠ '\'') : doubled (c :: cs) = c :: doubled cs := by
  simp [doubled, h]

theorem quotedText?_cons {c : Char} (h : c ≠ '\'') :
    quotedText? (c :: cs) = (quotedText? cs).map fun (value, count) => (c :: value, count + 1) := by
  rw [quotedText?]
  · exact fun _ same => absurd same h
  · exact h

theorem quotedText?_eq_some_iff {value : List Char} {count : Nat} :
    quotedText? cs = some (value, count) ↔
      ∃ rest, cs = doubled value ++ '\'' :: rest ∧ rest.head? ≠ some '\'' ∧
        count = (doubled value).length + 1 := by
  constructor
  · intro h
    fun_induction quotedText? cs generalizing value count with
    | case1 => cases h
    | case2 rest ih =>
        simp only [Option.map_eq_some_iff, Prod.mk.injEq] at h
        obtain ⟨⟨value, count⟩, found, rfl, rfl⟩ := h
        obtain ⟨behind, rfl, stop, rfl⟩ := ih found
        exact ⟨behind, by simp [doubled], stop, by simp [doubled]⟩
    | case3 rest other =>
        cases h
        refine ⟨rest, rfl, ?_, rfl⟩
        cases rest with
        | nil => simp
        | cons d rest =>
            rintro ⟨⟩
            exact other rest rfl
    | case4 c rest _ notQuote ih =>
        simp only [Option.map_eq_some_iff, Prod.mk.injEq] at h
        obtain ⟨⟨value, count⟩, found, rfl, rfl⟩ := h
        obtain ⟨behind, rfl, stop, rfl⟩ := ih found
        rw [doubled_cons notQuote]
        exact ⟨behind, rfl, stop, rfl⟩
  · rintro ⟨rest, rfl, stop, rfl⟩
    induction value with
    | nil =>
        cases rest with
        | nil => rfl
        | cons d rest =>
            have : d ≠ '\'' := by simpa using stop
            simp [doubled, quotedText?, this]
    | cons c value ih =>
        by_cases quote : c = '\''
        · subst quote
          simpa [doubled, quotedText?] using ih
        · rw [doubled_cons quote, List.cons_append, quotedText?_cons quote, ih]
          rfl

theorem quotedText?_append {value : List Char} {count : Nat} (h : Separates b)
    (found : quotedText? cs = some (value, count)) :
    quotedText? (cs ++ b :: ys) = some (value, count) := by
  obtain ⟨rest, rfl, stop, rfl⟩ := quotedText?_eq_some_iff.mp found
  refine quotedText?_eq_some_iff.mpr ⟨rest ++ b :: ys, by simp, ?_, rfl⟩
  cases rest with
  | nil =>
      rintro ⟨⟩
      exact absurd h.mark (by decide)
  | cons d rest => simpa using stop

theorem quote_mem_of_quotedText? {value : List Char} {count : Nat}
    (found : quotedText? cs = some (value, count)) : '\'' ∈ cs := by
  obtain ⟨rest, rfl, -, -⟩ := quotedText?_eq_some_iff.mp found
  simp

/-- A text that is not closed stays so while no quote is written. -/
theorem quotedText?_append_eq_none (unclosed : quotedText? cs = none) (noQuote : '\'' ∉ ys) :
    quotedText? (cs ++ ys) = none := by
  fun_induction quotedText? cs with
  | case1 =>
      cases found : quotedText? ys with
      | none => simpa using found
      | some r => exact absurd (quote_mem_of_quotedText? found) noQuote
  | case2 rest ih =>
      simp only [Option.map_eq_none_iff] at unclosed
      simp [quotedText?, ih unclosed]
  | case3 => cases unclosed
  | case4 c rest _ notQuote ih =>
      simp only [Option.map_eq_none_iff] at unclosed
      rw [List.cons_append, quotedText?_cons notQuote, ih unclosed]
      rfl

theorem operatorAt?_eq_some {op : Operator} {count : Nat} {c : Char}
    (h : operatorAt? (c :: cs) = some (op, count)) :
    op.text.toList = c :: cs.take count ∧ count ≤ cs.length := by
  unfold operatorAt? at h
  split at h <;> simp_all <;> obtain ⟨rfl, rfl⟩ := h <;> simp [Operator.text]

theorem operatorAt?_cons_cons {c d : Char} : operatorAt? (c :: d :: cs) = operatorAt? [c, d] := by
  by_cases starts : c ∈ ['=', '!', '<', '>', '&', '|']
  · simp only [List.mem_cons, List.not_mem_nil, or_false] at starts
    by_cases ends : d ∈ ['=', '&', '|']
    · simp only [List.mem_cons, List.not_mem_nil, or_false] at ends
      rcases starts with rfl | rfl | rfl | rfl | rfl | rfl <;>
        rcases ends with rfl | rfl | rfl <;> rfl
    · simp only [List.mem_cons, List.not_mem_nil, or_false, not_or] at ends
      rcases starts with rfl | rfl | rfl | rfl | rfl | rfl <;> simp [operatorAt?, ends]
  · simp only [List.mem_cons, List.not_mem_nil, or_false, not_or] at starts
    simp [operatorAt?, starts]

theorem operatorAt?_append {c : Char} (h : Separates b) :
    operatorAt? (c :: (cs ++ b :: ys)) = operatorAt? (c :: cs) := by
  cases cs with
  | nil =>
      have := h.mark
      unfold operatorAt?
      split <;> simp_all
  | cons d rest =>
      rw [List.cons_append, operatorAt?_cons_cons]
      exact operatorAt?_cons_cons.symm

/-! ### Lexemes -/

variable {position count : Nat} {last : Option Lexeme} {c : Char} {lexeme : Lexeme}

theorem numberText_cons_of_not (noDigit : isDigit c = false) (noDash : c ≠ '-') :
    numberText (c :: cs) = [] := by
  simp [numberText, noDigit, noDash]

theorem head_of_numberText (h : numberText (c :: cs) ≠ []) : isDigit c = true ∨ c = '-' := by
  rcases Bool.eq_false_or_eq_true (isDigit c) with digit | noDigit
  · exact .inl digit
  · exact .inr (Decidable.byContradiction fun noDash => h (numberText_cons_of_not noDigit noDash))

theorem IsNumeral.ne_nil (h : IsNumeral cs) : cs ≠ [] := by
  obtain ⟨-, whole, -, -⟩ := h
  simp [whole.1]

theorem IsNumeral.head (h : IsNumeral (c :: cs)) : isDigit c = true ∨ c = '-' := by
  have some : numberText (c :: cs) ≠ [] := by simp [numberText_of_isNumeral h]
  exact head_of_numberText some

theorem take_of_prefix_cons {run : List Char} (h : run <+: c :: cs) (some : run ≠ []) :
    run = c :: cs.take (run.length - 1) ∧ run.length - 1 ≤ cs.length := by
  obtain ⟨d, run, rfl⟩ := List.exists_cons_of_ne_nil some
  obtain ⟨rfl, behind⟩ := List.cons_prefix_cons.mp h
  exact ⟨congrArg _ (List.prefix_iff_eq_take.mp behind), behind.length_le⟩

theorem punctuator?_eq_some {mark : Punctuator} (h : punctuator? c = some mark) :
    mark.text.toList = [c] := by
  unfold punctuator? at h
  split at h <;> cases h <;> rfl

/-- What a scan finds is well formed, its written form is what the scan takes,
    and it is no negative number behind an operand. -/
theorem scan_sound (h : scan position last c cs = .ok (lexeme, count)) :
    lexeme.WellFormed ∧ lexeme.source = c :: cs.take count ∧ count ≤ cs.length ∧
      (last.any Lexeme.endsOperand = true → ¬ lexeme.IsNegative) := by
  unfold scan at h
  split at h
  · next quote =>
      subst quote
      split at h
      · next value count' found =>
          cases h
          obtain ⟨rest, rfl, -, rfl⟩ := quotedText?_eq_some_iff.mp found
          refine ⟨.string, ?_, by simp, fun _ => id⟩
          rw [source_string, String.toList_ofList, List.append_cons (doubled value) '\'' rest,
            List.take_left' (by simp)]
      · cases h
  · dsimp only at h
    split at h
    · next numeral =>
        cases h
        simp only [Bool.and_eq_true, Bool.not_eq_true', List.isEmpty_eq_false_iff, Bool.or_eq_true,
          decide_eq_true_eq] at numeral
        obtain ⟨some, sign⟩ := numeral
        obtain ⟨same, bound⟩ := take_of_prefix_cons numberText_prefix some
        refine ⟨.number (by simpa using isNumeral_numberText some), ?_, bound, ?_⟩
        · rw [← same]
          exact String.toList_ofList
        · intro operand negative
          rw [Lexeme.IsNegative, String.toList_ofList, same] at negative
          rcases sign with noDash | noOperand
          · exact noDash (Option.some.inj negative)
          · simp [operand] at noOperand
    · split at h
      · next name =>
          cases h
          simp only [Bool.not_eq_true', List.isEmpty_eq_false_iff] at name
          obtain ⟨same, bound⟩ := take_of_prefix_cons nameText_prefix name
          refine ⟨.identifier (by simpa using isName_nameText name), ?_, bound, fun _ => id⟩
          rw [← same]
          exact String.toList_ofList
      · split at h
        · next op count' found =>
            cases h
            obtain ⟨same, bound⟩ := operatorAt?_eq_some found
            exact ⟨.operator, same, bound, fun _ => id⟩
        · split at h
          · next mark found =>
              cases h
              exact ⟨.punctuator, punctuator?_eq_some found, Nat.zero_le _, fun _ => id⟩
          · cases h

theorem isAlpha_iff : c.isAlpha = true ↔
    0x41 ≤ c.toNat ∧ c.toNat ≤ 0x5A ∨ 0x61 ≤ c.toNat ∧ c.toNat ≤ 0x7A := by
  have upper : c.isUpper = true ↔ 0x41 ≤ c.toNat ∧ c.toNat ≤ 0x5A := decide_eq_true_iff
  have lower : c.isLower = true ↔ 0x61 ≤ c.toNat ∧ c.toNat ≤ 0x7A :=
    Bool.and_eq_true_iff.trans (and_congr decide_eq_true_iff decide_eq_true_iff)
  rw [← upper, ← lower]
  exact Bool.or_eq_true_iff

theorem isDigit_iff : isDigit c = true ↔ 0x30 ≤ c.toNat ∧ c.toNat ≤ 0x39 := by
  rw [isDigit, Bool.and_eq_true, decide_eq_true_eq, decide_eq_true_eq]
  rfl

theorem code_of_isNamePart (h : isNamePart c = true) :
    0x2D ≤ c.toNat ∧ c.toNat ≤ 0x7A ∨ c.toNat = 0x17F ∨ c.toNat = 0x212A := by
  simp only [isNamePart, isNameStart, Bool.or_eq_true, decide_eq_true_eq, isAlpha_iff,
    isDigit_iff] at h
  rcases h with ((((letter | rfl) | rfl) | rfl) | digit) | rfl
  · omega
  · decide
  · decide
  · decide
  · omega
  · decide

theorem separates_of_isBlank (h : Text.isBlank c = true) : Separates c where
  part := by
    cases part : isNamePart c with
    | false => rfl
    | true =>
        have code := code_of_isNamePart part
        simp only [Text.isBlank, Bool.or_eq_true, Bool.and_eq_true, decide_eq_true_eq,
          beq_iff_eq] at h
        omega
  mark := by
    intro mark
    simp only [List.mem_cons, List.not_mem_nil, or_false] at mark
    rcases mark with rfl | rfl | rfl | rfl | rfl | rfl <;> exact absurd h (by decide)

theorem isBlank_eq_false_of_isNamePart (h : isNamePart c = true) : Text.isBlank c = false := by
  cases blank : Text.isBlank c with
  | false => rfl
  | true => exact absurd h (by simp [(separates_of_isBlank blank).part])

theorem isDigit_eq_false_of_isNameStart (h : isNameStart c = true) : isDigit c = false := by
  simp only [isNameStart, Bool.or_eq_true, decide_eq_true_eq, isAlpha_iff] at h
  rcases h with ((letter | rfl) | rfl) | rfl
  · rw [Bool.eq_false_iff, ne_eq, isDigit_iff]
    omega
  · rfl
  · rfl
  · rfl

theorem scan_of_isName (form : IsName (c :: cs)) :
    scan position last c cs = .ok (.identifier (String.ofList (c :: cs)), cs.length) := by
  have whole := nameText_of_isName form
  obtain ⟨start, -⟩ := form
  have noDigit := isDigit_eq_false_of_isNameStart start
  have noMark : c ≠ '\'' ∧ c ≠ '-' := by
    constructor <;> rintro rfl <;> exact absurd start (by decide)
  simp [scan, noMark, numberText_cons_of_not noDigit noMark.2, whole]

theorem scan_of_isNumeral (form : IsNumeral (c :: cs))
    (sign : last.any Lexeme.endsOperand = true → c ≠ '-') :
    scan position last c cs = .ok (.number (String.ofList (c :: cs)), cs.length) := by
  have whole := numberText_of_isNumeral form
  have head := form.head
  have noQuote : c ≠ '\'' := by
    rintro rfl
    exact absurd head (by decide)
  have allowed : (!(c :: cs).isEmpty && (c ≠ '-' || !last.any Lexeme.endsOperand)) = true := by
    cases operand : last.any Lexeme.endsOperand with
    | false => simp
    | true => simp [sign operand]
  unfold scan
  rw [if_neg noQuote]
  dsimp only
  rw [whole, if_pos allowed]
  rfl

/-- A scan of a written form takes the whole of it. -/
theorem scan_source (form : lexeme.WellFormed)
    (sign : last.any Lexeme.endsOperand = true → ¬ lexeme.IsNegative) :
    ∃ c cs, lexeme.source = c :: cs ∧ Text.isBlank c = false ∧
      ∀ position, scan position last c cs = .ok (lexeme, cs.length) := by
  cases form with
  | @identifier name form =>
      obtain ⟨cs, rfl⟩ : ∃ cs, name = String.ofList cs := ⟨_, String.ofList_toList.symm⟩
      rw [String.toList_ofList] at form
      cases form with
      | @mk c rest start parts =>
          exact ⟨c, rest, String.toList_ofList,
            isBlank_eq_false_of_isNamePart (by simp [isNamePart, start]),
            fun position => scan_of_isName (.mk start parts)⟩
  | @number text form =>
      obtain ⟨cs, rfl⟩ : ∃ cs, text = String.ofList cs := ⟨_, String.ofList_toList.symm⟩
      rw [Lexeme.IsNegative, String.toList_ofList] at sign
      rw [String.toList_ofList] at form
      obtain ⟨c, rest, rfl⟩ := List.exists_cons_of_ne_nil form.ne_nil
      have part : isNamePart c = true := by
        rcases form.head with digit | rfl
        · simp [isNamePart, digit]
        · rfl
      exact ⟨c, rest, String.toList_ofList, isBlank_eq_false_of_isNamePart part,
        fun position => scan_of_isNumeral form (by simpa using sign)⟩
  | @string value =>
      refine ⟨_, _, source_string, rfl, fun position => ?_⟩
      have found : quotedText? (doubled value.toList ++ ['\'']) = some (value.toList, _) :=
        quotedText?_eq_some_iff.mpr ⟨[], rfl, by simp, rfl⟩
      simp [scan, found]
  | @operator op => cases op <;> exact ⟨_, _, rfl, rfl, fun _ => rfl⟩
  | @punctuator mark => cases mark <;> exact ⟨_, _, rfl, rfl, fun _ => rfl⟩

/-! ### What stands behind a lexeme -/

theorem scan_quote : scan position last '\'' cs =
    match quotedText? cs with
    | some (value, count) => .ok (.string (String.ofList value), count)
    | none => .error (.unterminatedString position) :=
  rfl

theorem scan_append_of_ne (h : Separates b) (noQuote : c ≠ '\'') :
    scan position last c (cs ++ b :: ys) = scan position last c cs := by
  unfold scan
  rw [if_neg noQuote, if_neg noQuote, operatorAt?_append h, ← List.cons_append,
    numberText_append h, nameText_append h]

theorem scan_append (h : Separates b) (scanned : scan position last c cs = .ok (lexeme, count)) :
    scan position last c (cs ++ b :: ys) = .ok (lexeme, count) := by
  by_cases quote : c = '\''
  · subst quote
    rw [scan_quote] at scanned ⊢
    split at scanned
    · next found => rw [quotedText?_append h found, ← scanned]
    · cases scanned
  · rw [scan_append_of_ne h quote, scanned]

/-- A scan that fails goes on to fail, unless it is in a quoted text that is
    closed later. -/
theorem scan_append_error {cause : Cause} (h : Separates b)
    (failed : scan position last c cs = .error cause)
    (unclosed : c = '\'' → '\'' ∉ b :: ys) :
    scan position last c (cs ++ b :: ys) = .error cause := by
  by_cases quote : c = '\''
  · subst quote
    rw [scan_quote] at failed ⊢
    split at failed
    · cases failed
    · next found => rw [quotedText?_append_eq_none found (unclosed rfl), ← failed]
  · rw [scan_append_of_ne h quote, failed]

/-- Only an unclosed quote fails a scan that starts a quoted text, and only a
    character that starts no lexeme any other one. -/
theorem scan_error {cause : Cause} (failed : scan position last c cs = .error cause) :
    c = '\'' ∧ cause = .unterminatedString position ∨
      c ≠ '\'' ∧ cause = .unexpectedCharacter (Text.firstUnit c) position := by
  by_cases quote : c = '\''
  · subst quote
    rw [scan_quote] at failed
    split at failed <;> cases failed
    exact .inl ⟨rfl, rfl⟩
  · unfold scan at failed
    rw [if_neg quote] at failed
    dsimp only at failed
    repeat' split at failed
    all_goals cases failed
    exact .inr ⟨quote, rfl⟩

/-- Neither the place of a lexeme nor more than the end of an operand before it
    matters to a scan. -/
theorem scan_congr {position' : Nat} {last' : Option Lexeme}
    (same : last.any Lexeme.endsOperand = last'.any Lexeme.endsOperand)
    (scanned : scan position last c cs = .ok (lexeme, count)) :
    scan position' last' c cs = .ok (lexeme, count) := by
  by_cases quote : c = '\''
  · subst quote
    rw [scan_quote] at scanned ⊢
    split at scanned
    · exact scanned
    · cases scanned
  · unfold scan at scanned ⊢
    rw [if_neg quote] at scanned ⊢
    rw [← same]
    dsimp only at scanned ⊢
    split at scanned
    · next numeral => rwa [if_pos numeral]
    · next noNumeral =>
        rw [if_neg noNumeral]
        repeat' split at scanned
        all_goals simp_all

end JobMatrix.Expr
