import JobMatrix.Expr.Eval
import JobMatrix.Proofs.Number.Difference
import JobMatrix.Proofs.Text.Order

/-! # Comparing values

Equality and order of values are two tables of their own: values of one kind are
equal as such and values of two kinds by the numbers they stand for, while the
order is the sign of a difference.  The tables agree on all scalars that can be
compared, but for one case: equal infinite numbers have no difference, so they
are neither at most nor at least each other.
-/

namespace JobMatrix

def Data.IsScalar : Data → Prop
  | .list _ | .map _ => False
  | _ => True

namespace Expr

namespace Value

def IsScalar : Value → Prop
  | list .. | map .. => False
  | _ => True

def AreTexts : Value → Value → Prop
  | text _, text _ => True
  | _, _ => False

/-- Two texts, or two values that stand for numbers. -/
def Comparable (l r : Value) : Prop :=
  AreTexts l r ∨ (l.toNumber.isNaN = false ∧ r.toNumber.isNaN = false)

/-- Two values, not both texts, that stand for the same infinite number. -/
def SameInfinity (l r : Value) : Prop :=
  ¬ AreTexts l r ∧ ∃ negative, l.toNumber = .infinity negative ∧ r.toNumber = .infinity negative

theorem isScalar_ofData {d : Data} (h : d.IsScalar) (node : Node) : (ofData node d).IsScalar := by
  cases d with
  | list items => cases h
  | map entries => cases h
  | absent | null | bool | number | text => trivial

variable {l r : Value}

/-! ## Values that are compared by their numbers -/

theorem looseEquals_of_numbers (hl : l.IsScalar) (hr : r.IsScalar) (mixed : ¬ AreTexts l r) :
    l.looseEquals r = l.toNumber.equals r.toNumber := by
  cases l with
  | null =>
      cases r with
      | null => decide +kernel
      | bool b | number n | text s => rfl
      | list node items => cases hr
      | map node entries => cases hr
  | bool a =>
      cases r with
      | bool b => cases a <;> cases b <;> decide +kernel
      | null | number n | text s => rfl
      | list node items => cases hr
      | map node entries => cases hr
  | number n => cases r <;> rfl
  | text s =>
      cases r with
      | text t => exact absurd trivial mixed
      | null | bool b | number n => rfl
      | list node items => cases hr
      | map node entries => cases hr
  | list node items => cases hl
  | map node entries => cases hl

theorem compare_of_numbers (mixed : ¬ AreTexts l r) : l.compare r = l.toNumber - r.toNumber := by
  cases l with
  | text s =>
      cases r with
      | text t => exact absurd trivial mixed
      | null | bool b | number n | list node items | map node entries => rfl
  | null | bool a | number n | list node items | map node entries => rfl

theorem isFinite_iff_of_equals {x y : Number} (same : x.equals y = true) :
    x.isFinite = true ↔ ¬ ∃ negative, x = .infinity negative ∧ y = .infinity negative := by
  cases x with
  | nan => cases same
  | finite a m => simp [Number.isFinite]
  | infinity a =>
      cases y with
      | nan => cases same
      | finite b n => cases same
      | infinity b =>
          have signs : a = b := beq_iff_eq.mp same
          simp [Number.isFinite, signs]

/-! ## The two tables -/

/-- The order of two values, told by equality and by the sign that orders them. -/
structure OrderedBy (l r : Value) (o : Ordering) : Prop where
  below : (l.compare r).isNegative = o.isLT
  equal : l.looseEquals r = o.isEq
  above : (l.compare r).isPositive = o.isGT
  zero : (l.compare r).isZero = true ↔ o.isEq = true ∧ ¬ SameInfinity l r
  infinite : SameInfinity l r → o.isEq = true

def sign : Ordering → Number
  | .lt => -1
  | .eq => 0
  | .gt => 1

theorem isNegative_sign (o : Ordering) : (sign o).isNegative = o.isLT := by
  cases o <;> decide +kernel

theorem isPositive_sign (o : Ordering) : (sign o).isPositive = o.isGT := by
  cases o <;> decide +kernel

theorem isZero_sign (o : Ordering) : (sign o).isZero = o.isEq := by
  cases o <;> decide +kernel

theorem orderedBy_texts (a b : String) : ∃ o, OrderedBy (text a) (text b) o := by
  have finite : ¬ SameInfinity (text a) (text b) := fun infinite => infinite.1 trivial
  obtain ⟨o, before, same, behind⟩ := Text.exists_order (Text.toLower a) (Text.toLower b)
  have compared : (text a).compare (text b) = if Text.toLower a = Text.toLower b then 0
      else if Text.less (Text.toLower a) (Text.toLower b) then -1 else 1 := rfl
  have signed : (text a).compare (text b) = sign o := by
    rw [compared, before]
    cases o with
    | lt => rw [if_neg (ne_of_beq_false same)]; rfl
    | eq => rw [if_pos (eq_of_beq same)]; rfl
    | gt => rw [if_neg (ne_of_beq_false same)]; rfl
  refine ⟨o, ?_, same, ?_, ?_, fun infinite => absurd infinite finite⟩
  · rw [signed, isNegative_sign]
  · rw [signed, isPositive_sign]
  · rw [signed, isZero_sign, and_iff_left finite]

theorem orderedBy_numbers (hl : l.IsScalar) (hr : r.IsScalar) (mixed : ¬ AreTexts l r)
    (number : l.toNumber.isNaN = false) (number' : r.toNumber.isNaN = false) :
    ∃ o, OrderedBy l r o := by
  obtain ⟨o, less, equal, greater⟩ := Number.exists_order number number'
  refine ⟨o, ?_, ?_, ?_, ?_, ?_⟩
  · rw [compare_of_numbers mixed, Number.isNegative_sub, less]
  · rw [looseEquals_of_numbers hl hr mixed, equal]
  · rw [compare_of_numbers mixed, Number.isPositive_sub, greater]
  · rw [compare_of_numbers mixed, Number.isZero_sub, Bool.and_eq_true, ← equal]
    refine and_congr_right fun same => ?_
    rw [isFinite_iff_of_equals same, SameInfinity, and_iff_right mixed]
  · rintro ⟨-, negative, left, right⟩
    rw [← equal, left, right]
    exact beq_self_eq_true negative

theorem exists_orderedBy (hl : l.IsScalar) (hr : r.IsScalar) (comparable : Comparable l r) :
    ∃ o, OrderedBy l r o := by
  by_cases texts : AreTexts l r
  · cases l with
    | text a =>
        cases r with
        | text b => exact orderedBy_texts a b
        | null | bool b | number n | list node items | map node entries => cases texts
    | null | bool a | number n | list node items | map node entries => cases texts
  · obtain ⟨number, number'⟩ := comparable.resolve_left texts
    exact orderedBy_numbers hl hr texts number number'

end Value

/-! ## The comparisons of expressions -/

/-- What the comparisons say about two values. -/
structure Compared (l r : Value) : Prop where
  one : ∃! op, op ∈ [Comparison.less, .equal, .greater] ∧ op.holds l r = true
  lessEqual : Comparison.lessEqual.holds l r = true ↔
    (Comparison.less.holds l r = true ∨ Comparison.equal.holds l r = true) ∧
      ¬ Value.SameInfinity l r
  greaterEqual : Comparison.greaterEqual.holds l r = true ↔
    (Comparison.greater.holds l r = true ∨ Comparison.equal.holds l r = true) ∧
      ¬ Value.SameInfinity l r

theorem existsUnique_of_order {l r : Value} (o : Ordering)
    (less : Comparison.less.holds l r = o.isLT) (equal : Comparison.equal.holds l r = o.isEq)
    (greater : Comparison.greater.holds l r = o.isGT) :
    ∃! op, op ∈ [Comparison.less, .equal, .greater] ∧ op.holds l r = true := by
  cases o with
  | lt => exact ⟨.less, ⟨by decide, less⟩, by simp [equal, greater]⟩
  | eq => exact ⟨.equal, ⟨by decide, equal⟩, by simp [less, greater]⟩
  | gt => exact ⟨.greater, ⟨by decide, greater⟩, by simp [less, equal]⟩

theorem compared_of_orderedBy {l r : Value} {o : Ordering} (ordered : l.OrderedBy r o) :
    Compared l r := by
  have less : Comparison.less.holds l r = o.isLT := ordered.below
  have equal : Comparison.equal.holds l r = o.isEq := ordered.equal
  have greater : Comparison.greater.holds l r = o.isGT := ordered.above
  have lessEqual : Comparison.lessEqual.holds l r =
      ((l.compare r).isNegative || (l.compare r).isZero) := rfl
  have greaterEqual : Comparison.greaterEqual.holds l r =
      ((l.compare r).isPositive || (l.compare r).isZero) := rfl
  have infinite := ordered.infinite
  refine ⟨existsUnique_of_order o less equal greater, ?_, ?_⟩
  · rw [lessEqual, Bool.or_eq_true, ordered.zero, ordered.below, less, equal]
    cases o <;> simp_all
  · rw [greaterEqual, Bool.or_eq_true, ordered.zero, ordered.above, greater, equal]
    cases o <;> simp_all

/-- **The comparisons agree.**  Of two scalars that are both texts or both stand
    for numbers, the first is below the second, equal to it or above it, and only
    one of these.  It is at most the second if and only if it is below or equal,
    and at least if and only if above or equal, unless both stand for the same
    infinite number. -/
theorem scalars_compared {a b : Data} (ha : a.IsScalar) (hb : b.IsScalar) (m n : Node)
    (comparable : (Value.ofData m a).Comparable (Value.ofData n b)) :
    Compared (Value.ofData m a) (Value.ofData n b) := by
  obtain ⟨o, ordered⟩ := Value.exists_orderedBy (Value.isScalar_ofData ha m)
    (Value.isScalar_ofData hb n) comparable
  exact compared_of_orderedBy ordered

theorem scalars_compared_numeral : Compared (.text " 0x10 ") (.number 16) ∧
    Comparison.lessEqual.holds (.text " 0x10 ") (.number 16) = true := by
  have compared : Compared (.text " 0x10 ") (.number 16) :=
    scalars_compared (a := .text " 0x10 ") (b := .number 16) trivial trivial [] []
      (.inr (by decide +kernel))
  have finite : ¬ Value.SameInfinity (.text " 0x10 ") (.number 16) := by
    rintro ⟨-, negative, -, infinite⟩
    revert infinite
    cases negative <;> decide +kernel
  exact ⟨compared, compared.lessEqual.mpr ⟨.inr (by decide +kernel), finite⟩⟩

/-- A number beyond all finite ones is equal to itself and not at most itself. -/
theorem infinity_not_at_most_itself : Number.ofText "1e999" = .infinity false ∧
    Comparison.equal.holds (.number (Number.ofText "1e999")) (.text "1e999") = true ∧
    Comparison.lessEqual.holds (.number (Number.ofText "1e999")) (.text "1e999") = false ∧
    Comparison.greaterEqual.holds (.number (Number.ofText "1e999")) (.text "1e999") = false := by
  decide +kernel

end Expr

end JobMatrix
