import Mathlib.Data.List.Lex
import JobMatrix.Text.Units

/-! # The order of texts

Texts are ordered by their units.  The units of a text write it in one way
only, so of two different texts exactly one comes before the other.
-/

namespace JobMatrix.Text

/-- A text of one unit and one of two units start with different units. -/
theorem charUnits_append_inj {c d : Char} {xs ys : List Nat}
    (same : charUnits c ++ xs = charUnits d ++ ys) : c = d ∧ xs = ys := by
  have valid (c : Char) : c.toNat < 0xD800 ∨ (0xDFFF < c.toNat ∧ c.toNat < 0x110000) := c.valid
  have inj (same : c.toNat = d.toNat) : c = d := Char.toNat_inj.mp same
  have validC := valid c
  have validD := valid d
  unfold charUnits at same
  split at same <;> split at same
  · obtain ⟨code, rest⟩ := List.cons.inj same
    exact ⟨inj code, rest⟩
  · have lead := (List.cons.inj same).1
    omega
  · have lead := (List.cons.inj same).1
    omega
  · obtain ⟨lead, same⟩ := List.cons.inj same
    obtain ⟨trail, rest⟩ := List.cons.inj same
    exact ⟨inj (by omega), rest⟩

theorem units_injective {as bs : List Char} (same : units as = units bs) : as = bs := by
  have filled (c : Char) (cs : List Char) : units (c :: cs) ≠ [] := by
    intro empty
    have size := length_units (c :: cs)
    rw [empty, size_cons, List.length_nil] at size
    have positive := charSize_pos c
    omega
  induction as generalizing bs with
  | nil =>
      cases bs with
      | nil => rfl
      | cons d bs => exact absurd same.symm (filled d bs)
  | cons c as ih =>
      cases bs with
      | nil => exact absurd same (filled c as)
      | cons d bs =>
          obtain ⟨rfl, rest⟩ := @charUnits_append_inj c d (units as) (units bs) same
          rw [ih rest]

theorem unitsLess_iff {as bs : List Nat} : unitsLess as bs = true ↔ as < bs := by
  induction as generalizing bs with
  | nil =>
      cases bs with
      | nil => simp [unitsLess]
      | cons b bs => simp [unitsLess]
  | cons a as ih =>
      cases bs with
      | nil => simp [unitsLess]
      | cons b bs =>
          rw [unitsLess, List.cons_lt_cons_iff]
          split
          · next same => simp [ih, same]
          · next differs => simp [differs]

theorem less_iff {a b : String} : less a b = true ↔ units a.toList < units b.toList :=
  unitsLess_iff

theorem less_irrefl (a : String) : less a a = false := by
  rw [Bool.eq_false_iff, Ne, less_iff]
  exact lt_irrefl _

theorem less_asymm {a b : String} (before : less a b = true) : less b a = false := by
  rw [less_iff] at before
  rw [Bool.eq_false_iff, Ne, less_iff]
  exact lt_asymm before

theorem less_total {a b : String} (differs : a ≠ b) : less a b = true ∨ less b a = true := by
  rw [less_iff, less_iff]
  apply lt_or_gt_of_ne
  intro same
  exact differs (String.toList_inj.mp (units_injective same))

/-- Of two texts one comes before the other, or they are the same. -/
theorem exists_order (a b : String) :
    ∃ o : Ordering, less a b = o.isLT ∧ (a == b) = o.isEq ∧ less b a = o.isGT := by
  by_cases same : a = b
  · subst same
    exact ⟨.eq, less_irrefl a, beq_self_eq_true a, less_irrefl a⟩
  · have differs : (a == b) = false := beq_false_of_ne same
    rcases less_total same with before | behind
    · exact ⟨.lt, before, differs, less_asymm before⟩
    · exact ⟨.gt, less_asymm behind, differs, behind⟩

end JobMatrix.Text
