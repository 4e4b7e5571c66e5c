import JobMatrix.Proofs.Expr.Grammar
import Mathlib.Data.List.Forall2

/-! # Rows of tokens that differ in their names

Names may be written in several ways, and where a token stands does not matter
to the grammar.  Two rows that correspond derive trees that correspond: the
case of a name is lost in the tree, except for the property that it takes.
-/

namespace JobMatrix.Expr

/-- Which names spell the same: no more than those of one lower case. -/
structure Spelling where
  Same : String → String → Prop
  folds : ∀ {name name'}, Same name name' → Text.toLower name = Text.toLower name'

namespace Spelling

def exact : Spelling where
  Same := Eq
  folds := congrArg Text.toLower

def anyCase : Spelling where
  Same name name' := Text.toLower name = Text.toLower name'
  folds := id

end Spelling

def Lexeme.Like (R : Spelling) : Lexeme → Lexeme → Prop
  | .identifier name, .identifier name' => R.Same name name'
  | lexeme, lexeme' => lexeme = lexeme'

/-- Rows of lexemes that are the same up to their names, wherever they stand. -/
def Alike (R : Spelling) : List Token → List Token → Prop :=
  List.Forall₂ fun token token' => token.lexeme.Like R token'.lexeme

/-- Trees that are the same up to the spelling of the properties they take. -/
inductive Like (R : Spelling) : Expr → Expr → Prop
  | literal {value} : Like R (.literal value) (.literal value)
  | context {name} : Like R (.context name) (.context name)
  | property {object object' name name'} : Like R object object' → R.Same name name' →
      Like R (.index object (.literal (.string name))) (.index object' (.literal (.string name')))
  | index {object object' key key'} : Like R object object' → Like R key key' →
      Like R (.index object key) (.index object' key')
  | not {operand operand'} : Like R operand operand' → Like R (.not operand) (.not operand')
  | logical {op left left' right right'} : Like R left left' → Like R right right' →
      Like R (.logical op left right) (.logical op left' right')
  | comparison {op left left' right right'} : Like R left left' → Like R right right' →
      Like R (.comparison op left right) (.comparison op left' right')
  | call {name arguments arguments'} : List.Forall₂ (Like R) arguments arguments' →
      Like R (.call name arguments) (.call name arguments')

variable {R : Spelling}

mutual

theorem Like.eq_of_exact {t t' : Expr} (like : Like .exact t t') : t = t' := by
  cases like with
  | literal | context => rfl
  | property object name =>
      obtain rfl := name
      rw [object.eq_of_exact]
  | index object key => rw [object.eq_of_exact, key.eq_of_exact]
  | not operand => rw [operand.eq_of_exact]
  | logical left right | comparison left right => rw [left.eq_of_exact, right.eq_of_exact]
  | call arguments => rw [eq_of_all_exact arguments]
termination_by sizeOf t

theorem eq_of_all_exact {ts ts' : List Expr} (likes : List.Forall₂ (Like .exact) ts ts') :
    ts = ts' := by
  cases likes with
  | nil => rfl
  | cons first others => rw [first.eq_of_exact, eq_of_all_exact others]
termination_by sizeOf ts

end

section Alike

variable {ts ts' left right : List Token} {token : Token} {lexeme : Lexeme} {name : String}

theorem Lexeme.like_identifier :
    lexeme.Like R (.identifier name) ↔ ∃ name', lexeme = .identifier name' ∧ R.Same name' name := by
  cases lexeme <;> simp [Lexeme.Like]

theorem Lexeme.like_other {other : Lexeme} (noName : ∀ name, other ≠ .identifier name) :
    lexeme.Like R other ↔ lexeme = other := by
  cases other with
  | identifier name => exact absurd rfl (noName name)
  | _ => cases lexeme <;> rfl

theorem alike_nil : Alike R ts [] ↔ ts = [] :=
  List.forall₂_nil_right_iff

theorem alike_cons :
    Alike R ts' (token :: ts) ↔
      ∃ lexeme p behind, ts' = ⟨lexeme, p⟩ :: behind ∧ lexeme.Like R token.lexeme ∧
        Alike R behind ts := by
  unfold Alike
  rw [List.forall₂_cons_right_iff]
  constructor
  · rintro ⟨⟨lexeme, p⟩, behind, like, alike, rfl⟩
    exact ⟨lexeme, p, behind, rfl, like, alike⟩
  · rintro ⟨lexeme, p, behind, rfl, like, alike⟩
    exact ⟨⟨lexeme, p⟩, behind, like, alike, rfl⟩

theorem alike_append :
    Alike R ts' (left ++ right) ↔
      ∃ left' right', ts' = left' ++ right' ∧ Alike R left' left ∧ Alike R right' right := by
  unfold Alike
  constructor
  · intro alike
    refine ⟨ts'.take left.length, ts'.drop left.length, (List.take_append_drop _ _).symm, ?_, ?_⟩
    · exact List.forall₂_take_append _ _ _ alike
    · exact List.forall₂_drop_append _ _ _ alike
  · rintro ⟨left', right', rfl, alikeLeft, alikeRight⟩
    exact List.rel_append alikeLeft alikeRight

end Alike

theorem Joins.respell {level : Level} {op : Operator} {left left' right right' t : Expr}
    (joins : Joins level op left right t) (like : Like R left' left) (like' : Like R right' right) :
    ∃ t', Joins level op left' right' t' ∧ Like R t' t := by
  cases joins
  case or => exact ⟨_, .or, .logical like like'⟩
  case and => exact ⟨_, .and, .logical like like'⟩
  case equal => exact ⟨_, .equal, .comparison like like'⟩
  case notEqual => exact ⟨_, .notEqual, .comparison like like'⟩
  case less => exact ⟨_, .less, .comparison like like'⟩
  case lessEqual => exact ⟨_, .lessEqual, .comparison like like'⟩
  case greater => exact ⟨_, .greater, .comparison like like'⟩
  case greaterEqual => exact ⟨_, .greaterEqual, .comparison like like'⟩

/-- Only the spelling of a property is kept, so a name is its lower case. -/
theorem Named.like {name : String} {t : Expr} (named : Named name t) : Like R t t := by
  cases named <;> constructor

theorem Named.congr {name name' : String} {t : Expr} (named : Named name t)
    (same : Text.toLower name' = Text.toLower name) : Named name' t := by
  rw [named_iff] at named ⊢
  rw [named, ofName, ofName, same]

-- The recursion is on the derivation.  A row that corresponds to the parts of a
-- production falls into parts that correspond to them.
mutual

theorem Joined.respell {level ts ts' t} : Joined level ts t → Alike R ts' ts →
    ∃ t', Joined level ts' t' ∧ Like R t' t
  | .operand operand, alike => by
      obtain ⟨t', operand', like⟩ := operand.respell alike
      exact ⟨t', .operand operand', like⟩
  | .join joined operand joins, alike => by
      simp (disch := simp) only [alike_append, alike_cons, Lexeme.like_other] at alike
      obtain ⟨left, _, rfl, alikeLeft, _, p, right, rfl, rfl, alikeRight⟩ := alike
      obtain ⟨_, joined', likeLeft⟩ := joined.respell alikeLeft
      obtain ⟨_, operand', likeRight⟩ := operand.respell alikeRight
      obtain ⟨t', joins', like⟩ := joins.respell likeLeft likeRight
      exact ⟨t', .join joined' operand' joins', like⟩

theorem Operand.respell {level ts ts' t} : Operand level ts t → Alike R ts' ts →
    ∃ t', Operand level ts' t' ∧ Like R t' t
  | .or joined, alike => by
      obtain ⟨t', joined', like⟩ := joined.respell alike
      exact ⟨t', .or joined', like⟩
  | .and joined, alike => by
      obtain ⟨t', joined', like⟩ := joined.respell alike
      exact ⟨t', .and joined', like⟩
  | .equality joined, alike => by
      obtain ⟨t', joined', like⟩ := joined.respell alike
      exact ⟨t', .equality joined', like⟩
  | .order unary, alike => by
      obtain ⟨t', unary', like⟩ := unary.respell alike
      exact ⟨t', .order unary', like⟩

theorem Unary.respell {ts ts' t} : Unary ts t → Alike R ts' ts →
    ∃ t', Unary ts' t' ∧ Like R t' t
  | .not unary, alike => by
      simp (disch := simp) only [alike_cons, Lexeme.like_other] at alike
      obtain ⟨_, p, behind, rfl, rfl, alike⟩ := alike
      obtain ⟨t', unary', like⟩ := unary.respell alike
      exact ⟨.not t', .not unary', .not like⟩
  | .access access, alike => by
      obtain ⟨t', access', like⟩ := access.respell alike
      exact ⟨t', .access access', like⟩

theorem Access.respell {ts ts' t} : Access ts t → Alike R ts' ts →
    ∃ t', Access ts' t' ∧ Like R t' t
  | .primary primary, alike => by
      obtain ⟨t', primary', like⟩ := primary.respell alike
      exact ⟨t', .primary primary', like⟩
  | .property access, alike => by
      simp (disch := simp) only [alike_append, alike_cons, alike_nil, Lexeme.like_identifier,
        Lexeme.like_other] at alike
      obtain ⟨object, _, rfl, alike, _, p, _, rfl, rfl, _, p', _, rfl, ⟨name', rfl, same⟩, rfl⟩ :=
        alike
      obtain ⟨t', access', like⟩ := access.respell alike
      exact ⟨.index t' (.literal (.string name')), .property access', .property like same⟩
  | .index access joined, alike => by
      simp (disch := simp) only [alike_append, alike_cons, alike_nil, Lexeme.like_other] at alike
      obtain ⟨object, _, rfl, alike, _, p, _, rfl, rfl, key, _, rfl, alikeKey, _, p', _, rfl, rfl,
        rfl⟩ := alike
      obtain ⟨t', access', like⟩ := access.respell alike
      obtain ⟨k', joined', likeKey⟩ := joined.respell alikeKey
      exact ⟨.index t' k', .index access' joined', .index like likeKey⟩

theorem Primary.respell {ts ts' t} : Primary ts t → Alike R ts' ts →
    ∃ t', Primary ts' t' ∧ Like R t' t
  | .call arguments, alike => by
      simp (disch := simp) only [alike_append, alike_cons, alike_nil, Lexeme.like_identifier,
        Lexeme.like_other] at alike
      obtain ⟨_, p, _, rfl, ⟨name', rfl, same⟩, _, p', _, rfl, rfl, inner, _, rfl, alike, _, p'', _,
        rfl, rfl, rfl⟩ := alike
      obtain ⟨parameters', arguments', like⟩ := arguments.respell alike
      refine ⟨.call (Text.toLower name') parameters', .call arguments', ?_⟩
      rw [R.folds same]
      exact .call like
  | .name named, alike => by
      simp only [alike_cons, alike_nil, Lexeme.like_identifier] at alike
      obtain ⟨_, p, _, rfl, ⟨name', rfl, same⟩, rfl⟩ := alike
      exact ⟨_, .name (named.congr (R.folds same)), named.like⟩
  | .string, alike => by
      simp (disch := simp) only [alike_cons, alike_nil, Lexeme.like_other] at alike
      obtain ⟨_, p, _, rfl, rfl, rfl⟩ := alike
      exact ⟨_, .string, .literal⟩
  | .number, alike => by
      simp (disch := simp) only [alike_cons, alike_nil, Lexeme.like_other] at alike
      obtain ⟨_, p, _, rfl, rfl, rfl⟩ := alike
      exact ⟨_, .number, .literal⟩
  | .paren joined, alike => by
      simp (disch := simp) only [alike_append, alike_cons, alike_nil, Lexeme.like_other] at alike
      obtain ⟨_, p, _, rfl, rfl, inner, _, rfl, alike, _, p', _, rfl, rfl, rfl⟩ := alike
      obtain ⟨t', joined', like⟩ := joined.respell alike
      exact ⟨t', .paren joined', like⟩

theorem Arguments.respell {ts ts' parameters} : Arguments ts parameters → Alike R ts' ts →
    ∃ parameters', Arguments ts' parameters' ∧ List.Forall₂ (Like R) parameters' parameters
  | .none, alike => by
      rw [alike_nil.mp alike]
      exact ⟨[], .none, .nil⟩
  | .some list, alike => by
      obtain ⟨parameters', list', like⟩ := list.respell alike
      exact ⟨parameters', .some list', like⟩

theorem ArgumentList.respell {ts ts' parameters} : ArgumentList ts parameters →
    Alike R ts' ts →
    ∃ parameters', ArgumentList ts' parameters' ∧ List.Forall₂ (Like R) parameters' parameters
  | .last joined, alike => by
      obtain ⟨t', joined', like⟩ := joined.respell alike
      exact ⟨[t'], .last joined', .cons like .nil⟩
  | .more joined others, alike => by
      simp (disch := simp) only [alike_append, alike_cons, Lexeme.like_other] at alike
      obtain ⟨first, _, rfl, alike, _, p, behind, rfl, rfl, alikeBehind⟩ := alike
      obtain ⟨t', joined', like⟩ := joined.respell alike
      obtain ⟨others', list', likes⟩ := others.respell alikeBehind
      exact ⟨t' :: others', .more joined' list', .cons like likes⟩

end

end JobMatrix.Expr
