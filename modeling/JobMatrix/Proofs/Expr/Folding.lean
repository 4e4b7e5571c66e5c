import JobMatrix.Proofs.Expr.Dependence
import JobMatrix.Proofs.Expr.Embedding

/-! # Names in lower case

The lexer lets few characters into a name, and a name made of them does not
change any more once it is in lower case.  So the contexts that an expression
names are in lower case, and two of them that fold alike are the same.
-/

namespace JobMatrix.Expr

/-! ### Characters of names -/

/-- A character that stays as it is in lower case, wherever it stands. -/
def IsLower (c : Char) : Prop :=
  c ≠ 'Σ' ∧ Text.lowerChar c = [c]

theorem isLower_of_toNat {c : Char} (ascii : c.toNat < 0x80)
    (noCapital : ¬(0x41 ≤ c.toNat ∧ c.toNat ≤ 0x5A)) : IsLower c := by
  refine ⟨?_, ?_⟩
  · rintro rfl
    revert ascii
    decide
  · simp only [Text.lowerChar, if_pos ascii, Bool.and_eq_true, decide_eq_true_eq, if_neg noCapital]

theorem isLower_of_mem_lowerChar {c d : Char} (part : isNamePart c = true)
    (member : d ∈ Text.lowerChar c) : IsLower d := by
  rcases code_of_isNamePart part with ascii | code | code
  · have small : c.toNat < 0x80 := by omega
    simp only [Text.lowerChar, if_pos small, Bool.and_eq_true, decide_eq_true_eq,
      List.mem_singleton] at member
    split at member
    · next capital =>
        have moved : d.toNat = c.toNat + 0x20 := by
          rw [member, Char.toNat_ofNat, if_pos (.inl (by omega))]
        exact isLower_of_toNat (by omega) (by omega)
    · next noCapital =>
        rw [member]
        exact isLower_of_toNat small noCapital
  · obtain rfl : c = '\u017F' := Char.toNat_inj.mp code
    obtain rfl : d = '\u017F' := by simpa using (show d ∈ ['\u017F'] from member)
    exact ⟨by decide, by decide⟩
  · obtain rfl : c = '\u212A' := Char.toNat_inj.mp code
    obtain rfl : d = 'k' := by simpa using (show d ∈ ['k'] from member)
    exact ⟨by decide, by decide⟩

theorem ne_sigma_of_isNamePart {c : Char} (part : isNamePart c = true) : c ≠ 'Σ' := by
  rintro rfl
  revert part
  decide

theorem lowerFrom_eq_self {before cs : List Char} (lower : ∀ c ∈ cs, IsLower c) :
    Text.lowerFrom before cs = cs := by
  induction cs generalizing before with
  | nil => rfl
  | cons c cs ih =>
      obtain ⟨⟨notSigma, same⟩, others⟩ := List.forall_mem_cons.mp lower
      rw [Text.lowerFrom, if_neg notSigma, same, ih others]
      rfl

theorem isLower_of_mem_lowerFrom {before cs : List Char} (parts : ∀ c ∈ cs, isNamePart c = true) :
    ∀ d ∈ Text.lowerFrom before cs, IsLower d := by
  induction cs generalizing before with
  | nil => nofun
  | cons c cs ih =>
      obtain ⟨part, others⟩ := List.forall_mem_cons.mp parts
      intro d member
      rw [Text.lowerFrom, if_neg (ne_sigma_of_isNamePart part)] at member
      rcases List.mem_append.mp member with first | behind
      · exact isLower_of_mem_lowerChar part first
      · exact ih others d behind

/-- A name in lower case does not change any more. -/
theorem toLower_toLower_of_isName {name : String} (form : IsName name.toList) :
    Text.toLower (Text.toLower name) = Text.toLower name := by
  have parts : ∀ c ∈ name.toList, isNamePart c = true := by
    cases same : name.toList with
    | nil => nofun
    | cons c rest =>
        rw [same] at form
        obtain ⟨start, parts⟩ := form
        exact List.forall_mem_cons.mpr ⟨by simp [isNamePart, start], parts⟩
  rw [Text.toLower, Text.toLower, String.toList_ofList]
  exact congrArg String.ofList (lowerFrom_eq_self (isLower_of_mem_lowerFrom parts))

/-! ### Contexts of trees -/

/-- The contexts that a tree names are in lower case. -/
def Folded (t : Expr) : Prop :=
  ∀ n ∈ contextNames t, Text.toLower n = n

/-- A row of lexemes that can be written. -/
def WellFormed (ts : List Token) : Prop :=
  ∀ token ∈ ts, token.lexeme.WellFormed

theorem wellFormed_cons {token : Token} {ts : List Token} :
    WellFormed (token :: ts) ↔ token.lexeme.WellFormed ∧ WellFormed ts :=
  List.forall_mem_cons

theorem wellFormed_append {ts ts' : List Token} :
    WellFormed (ts ++ ts') ↔ WellFormed ts ∧ WellFormed ts' :=
  List.forall_mem_append

theorem contextNames_of_joins {level : Level} {op : Operator} {left right t : Expr}
    (joins : Joins level op left right t) :
    contextNames t = contextNames left ++ contextNames right := by
  cases joins <;> rfl

theorem folded_of_named {name : String} {t : Expr} (form : IsName name.toList)
    (named : Named name t) : Folded t := by
  cases named with
  | true | false | null => nofun
  | context => exact List.forall_mem_singleton.mpr (toLower_toLower_of_isName form)

mutual

theorem Joined.folded {level ts t} : Joined level ts t → WellFormed ts → Folded t
  | .operand operand, forms => operand.folded forms
  | .join joined operand joins, forms => by
      obtain ⟨first, behind⟩ := wellFormed_append.mp forms
      rw [Folded, contextNames_of_joins joins]
      exact List.forall_mem_append.mpr
        ⟨joined.folded first, operand.folded (wellFormed_cons.mp behind).2⟩

theorem Operand.folded {level ts t} : Operand level ts t → WellFormed ts → Folded t
  | .or joined, forms => joined.folded forms
  | .and joined, forms => joined.folded forms
  | .equality joined, forms => joined.folded forms
  | .order unary, forms => unary.folded forms

theorem Unary.folded {ts t} : Unary ts t → WellFormed ts → Folded t
  | .not unary, forms => unary.folded (wellFormed_cons.mp forms).2
  | .access access, forms => access.folded forms

theorem Access.folded {ts t} : Access ts t → WellFormed ts → Folded t
  | .primary primary, forms => primary.folded forms
  | .property access, forms =>
      List.forall_mem_append.mpr ⟨access.folded (wellFormed_append.mp forms).1, nofun⟩
  | .index access joined, forms => by
      obtain ⟨object, behind⟩ := wellFormed_append.mp forms
      obtain ⟨key, -⟩ := wellFormed_append.mp (wellFormed_cons.mp behind).2
      exact List.forall_mem_append.mpr ⟨access.folded object, joined.folded key⟩

theorem Primary.folded {ts t} : Primary ts t → WellFormed ts → Folded t
  | .call arguments, forms => by
      obtain ⟨-, behind⟩ := wellFormed_cons.mp forms
      exact arguments.folded (wellFormed_append.mp (wellFormed_cons.mp behind).2).1
  | .name named, forms => by
      obtain ⟨form, -⟩ := wellFormed_cons.mp forms
      cases form with
      | identifier form => exact folded_of_named form named
  | .string, _ => nofun
  | .number, _ => nofun
  | .paren joined, forms =>
      joined.folded (wellFormed_append.mp (wellFormed_cons.mp forms).2).1

theorem Arguments.folded {ts parameters} : Arguments ts parameters → WellFormed ts →
    ∀ n ∈ allContextNames parameters, Text.toLower n = n
  | .none, _ => nofun
  | .some list, forms => list.folded forms

theorem ArgumentList.folded {ts parameters} : ArgumentList ts parameters → WellFormed ts →
    ∀ n ∈ allContextNames parameters, Text.toLower n = n
  | .last joined, forms => List.forall_mem_append.mpr ⟨joined.folded forms, nofun⟩
  | .more joined others, forms => by
      obtain ⟨first, behind⟩ := wellFormed_append.mp forms
      exact List.forall_mem_append.mpr
        ⟨joined.folded first, others.folded (wellFormed_cons.mp behind).2⟩

end

/-- An expression names its contexts in lower case, whatever case they are
    written in. -/
theorem folded_of_parse {s : String} {t : Expr} (parsed : parse s = .ok t) : Folded t := by
  rw [← String.ofList_toList (s := s)] at parsed
  obtain ⟨body, q, lexed, derived⟩ := lexFrom_of_parse parsed
  obtain ⟨_, scans⟩ := scans_of_lexFrom lexed
  obtain ⟨body', same, forms⟩ := (scans.written rfl).ends
  obtain ⟨rfl, -⟩ := List.append_inj' same rfl
  exact derived.folded forms

end JobMatrix.Expr
