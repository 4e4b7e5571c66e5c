import JobMatrix.Number.Basic

/-! # The sign of a difference

The difference of two numbers is rounded, but never to zero: its sign is the
order of the numbers.  Only equal infinite numbers have no difference, although
they are equal.
-/

namespace JobMatrix.Number

/-! ## Rounded counts of units -/

theorem roundQuotient_one_ne_zero {units : Nat} (some : units ≠ 0) : roundQuotient units 1 ≠ 0 := by
  have step : 0 < Nat.pow 2 (units.log2 + 1 - 53) := Nat.two_pow_pos _
  have fits : Nat.pow 2 (units.log2 + 1 - 53) ≤ units := by
    calc 2 ^ (units.log2 + 1 - 53) ≤ 2 ^ units.log2 := Nat.pow_le_pow_right (by decide) (by omega)
      _ ≤ units := Nat.log2_self_le some
  have floor : 0 < units / Nat.pow 2 (units.log2 + 1 - 53) := Nat.div_pos fits step
  intro rounded
  unfold roundQuotient at rounded
  simp only [Nat.div_one, Nat.one_mul] at rounded
  rcases Nat.mul_eq_zero.mp rounded with none | none
  · split at none <;> omega
  · omega

theorem roundQuotient_one_eq_zero_iff {units : Nat} : roundQuotient units 1 = 0 ↔ units = 0 := by
  constructor
  · intro rounded
    rcases Nat.eq_zero_or_pos units with none | some
    · exact none
    · exact absurd rounded (roundQuotient_one_ne_zero (by omega))
  · intro none
    rw [none]
    rfl

theorem unitsLimit_pos : 0 < unitsLimit := by
  decide +kernel

/-- What is too large for a finite number is not zero. -/
theorem ofUnits_cases (negative : Bool) (units : Nat) :
    ofUnits negative units = finite negative units ∨
      (units ≠ 0 ∧ ofUnits negative units = infinity negative) := by
  by_cases fits : units < unitsLimit
  · exact .inl (if_pos fits)
  · have limit := unitsLimit_pos
    exact .inr ⟨by omega, if_neg fits⟩

theorem isZero_finite_iff {negative : Bool} {units : Nat} :
    (finite negative units).isZero = true ↔ units = 0 := by
  cases units <;> simp [isZero]

theorem isZero_ofInt_iff {units : Int} : (ofInt units).isZero = true ↔ units = 0 := by
  rw [← Int.natAbs_eq_zero, ← roundQuotient_one_eq_zero_iff, ofInt]
  rcases ofUnits_cases (decide (units < 0)) (roundQuotient units.natAbs 1) with same | ⟨some, same⟩
  · rw [same, isZero_finite_iff]
  · simp [same, isZero, some]

theorem isNegative_ofInt_iff {units : Int} : (ofInt units).isNegative = true ↔ units < 0 := by
  have kept := @roundQuotient_one_eq_zero_iff units.natAbs
  rw [ofInt]
  rcases ofUnits_cases (decide (units < 0)) (roundQuotient units.natAbs 1) with same | ⟨some, same⟩
  · rw [same, isNegative, Bool.and_eq_true, decide_eq_true_eq, bne_iff_ne, Ne, kept]
    omega
  · rw [same, isNegative, decide_eq_true_eq]

theorem isPositive_ofInt_iff {units : Int} : (ofInt units).isPositive = true ↔ 0 < units := by
  have kept := @roundQuotient_one_eq_zero_iff units.natAbs
  rw [ofInt]
  rcases ofUnits_cases (decide (units < 0)) (roundQuotient units.natAbs 1) with same | ⟨some, same⟩
  · rw [same, isPositive, Bool.and_eq_true, Bool.not_eq_true', decide_eq_false_iff_not, bne_iff_ne,
      Ne, kept]
    omega
  · rw [same, isPositive, Bool.not_eq_true', decide_eq_false_iff_not]
    rw [Ne, kept] at some
    omega

/-! ## Differences -/

theorem equals_finite_iff {a b : Bool} {m n : Nat} :
    (finite a m).equals (finite b n) = true ↔ signedUnits a m = signedUnits b n := by
  rw [equals, Bool.or_eq_true, Bool.and_eq_true, Bool.and_eq_true, beq_iff_eq, beq_iff_eq,
    beq_iff_eq, beq_iff_eq]
  cases a <;> cases b <;> simp [signedUnits] <;> omega

theorem sub_finite (a b : Bool) (m n : Nat) : finite a m - finite b n =
    if m = 0 ∧ n = 0 then finite (a && !b) 0 else ofInt (signedUnits a m - signedUnits b n) := by
  show sub (finite a m) (finite b n) = _
  rw [sub]
  by_cases zeros : m = 0 ∧ n = 0
  · simp [zeros]
  · simp [zeros]

/-- The sign of a difference of finite numbers is that of the exact one. -/
theorem sign_sub_finite (a b : Bool) (m n : Nat) :
    ((finite a m - finite b n).isNegative = true ↔ signedUnits a m < signedUnits b n) ∧
    ((finite a m - finite b n).isPositive = true ↔ signedUnits b n < signedUnits a m) ∧
    ((finite a m - finite b n).isZero = true ↔ signedUnits a m = signedUnits b n) := by
  rw [sub_finite]
  by_cases zeros : m = 0 ∧ n = 0
  · obtain ⟨rfl, rfl⟩ := zeros
    simp [isNegative, isPositive, isZero, signedUnits]
  · rw [if_neg zeros, isNegative_ofInt_iff, isPositive_ofInt_iff, isZero_ofInt_iff]
    omega

theorem isNegative_sub (x y : Number) : (x - y).isNegative = x.less y := by
  cases x with
  | nan => rfl
  | infinity a =>
      cases y with
      | nan => rfl
      | infinity b => cases a <;> cases b <;> rfl
      | finite b n => rfl
  | finite a m =>
      cases y with
      | nan => rfl
      | infinity b => rfl
      | finite b n =>
          rw [Bool.eq_iff_iff, (sign_sub_finite a b m n).1, less, decide_eq_true_eq]

theorem isPositive_sub (x y : Number) : (x - y).isPositive = y.less x := by
  cases x with
  | nan => cases y <;> rfl
  | infinity a =>
      cases y with
      | nan => rfl
      | infinity b => cases a <;> cases b <;> rfl
      | finite b n => rfl
  | finite a m =>
      cases y with
      | nan => rfl
      | infinity b => cases b <;> rfl
      | finite b n =>
          rw [Bool.eq_iff_iff, (sign_sub_finite a b m n).2.1, less, decide_eq_true_eq]

theorem isZero_sub (x y : Number) : (x - y).isZero = (x.equals y && x.isFinite) := by
  cases x with
  | nan => rfl
  | infinity a =>
      cases y with
      | nan => rfl
      | infinity b => cases a <;> cases b <;> rfl
      | finite b n => rfl
  | finite a m =>
      cases y with
      | nan => rfl
      | infinity b => rfl
      | finite b n =>
          rw [Bool.eq_iff_iff, (sign_sub_finite a b m n).2.2, isFinite, Bool.and_true,
            equals_finite_iff]

/-! ## The order of numbers -/

theorem exists_order_finite (a b : Bool) (m n : Nat) : ∃ o : Ordering,
    (finite a m).less (finite b n) = o.isLT ∧ (finite a m).equals (finite b n) = o.isEq ∧
      (finite b n).less (finite a m) = o.isGT := by
  refine ⟨compare (signedUnits a m) (signedUnits b n), ?_, ?_, ?_⟩
  · rw [Bool.eq_iff_iff, less, decide_eq_true_eq, Ordering.isLT_iff_eq_lt, Int.compare_eq_lt]
  · rw [Bool.eq_iff_iff, equals_finite_iff, Ordering.isEq_iff_eq_eq, Int.compare_eq_eq]
  · rw [Bool.eq_iff_iff, less, decide_eq_true_eq, Ordering.isGT_iff_eq_gt, Int.compare_eq_gt]

theorem exists_order {x y : Number} (hx : x.isNaN = false) (hy : y.isNaN = false) :
    ∃ o : Ordering, x.less y = o.isLT ∧ x.equals y = o.isEq ∧ y.less x = o.isGT := by
  cases x with
  | nan => cases hx
  | infinity a =>
      cases y with
      | nan => cases hy
      | infinity b => cases a <;> cases b <;> decide
      | finite b n =>
          cases a with
          | false => exact ⟨.gt, rfl, rfl, rfl⟩
          | true => exact ⟨.lt, rfl, rfl, rfl⟩
  | finite a m =>
      cases y with
      | nan => cases hy
      | infinity b =>
          cases b with
          | false => exact ⟨.lt, rfl, rfl, rfl⟩
          | true => exact ⟨.gt, rfl, rfl, rfl⟩
      | finite b n => exact exists_order_finite a b m n

end JobMatrix.Number
