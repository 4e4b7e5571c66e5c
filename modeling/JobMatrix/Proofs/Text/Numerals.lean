import JobMatrix.Dict
import JobMatrix.Text.Lowercase

/-! # Numerals in lower case

Digits have no case, and nothing else becomes a digit in lower case.  So a key
that writes an index has no other spelling.
-/

namespace JobMatrix.Text

theorem isDigit_ofNat {n : Nat} (beyond : 0x3A ≤ n) : (Char.ofNat n).isDigit = false := by
  by_cases valid : n.isValidChar
  · have same : Char.ofNat n = Char.ofNatAux n valid := dif_pos valid
    have code : (Char.ofNatAux n valid).toNat = n := rfl
    have nine : '9'.toNat = 0x39 := rfl
    rw [same, ← Bool.not_eq_true, Char.isDigit_iff_toNat, code]
    omega
  · have same : Char.ofNat n = Char.ofNat 0 := (dif_neg valid).trans rfl
    rw [same]
    rfl

/-- What becomes of a character in lower case is the character itself, or begins
    with no digit. -/
theorem lowerChar_cases (c : Char) :
    lowerChar c = [c] ∨ ∃ d ds, lowerChar c = d :: ds ∧ d.isDigit = false := by
  simp only [lowerChar]
  split
  · split
    · next capital =>
        simp only [Bool.and_eq_true, decide_eq_true_eq] at capital
        exact .inr ⟨_, [], rfl, isDigit_ofNat (by omega)⟩
    · exact .inl rfl
  split
  · exact .inr ⟨'i', _, rfl, rfl⟩
  · unfold Case.apply
    split
    · next r found =>
        have beyond : ∀ r ∈ Case.lowerRuns, 0x3A ≤ r.target := by decide +kernel
        have target := beyond r (List.mem_of_find?_eq_some found)
        refine .inr ⟨_, [], rfl, isDigit_ofNat ?_⟩
        rw [Case.Run.image]
        omega
    · exact .inl (by rw [Char.ofNat_toNat])

theorem lowerChar_digit {c : Char} (digit : c.isDigit = true) : c ≠ 'Σ' ∧ lowerChar c = [c] := by
  refine ⟨?_, ?_⟩
  · rintro rfl
    cases digit
  · have code := Char.isDigit_iff_toNat.mp digit
    have nine : '9'.toNat = 0x39 := rfl
    have small : c.toNat < 0x80 := by omega
    have noCapital : ¬(0x41 ≤ c.toNat ∧ c.toNat ≤ 0x5A) := by omega
    simp [lowerChar, small, noCapital]

theorem lowerFrom_digits {cs : List Char} (digits : ∀ c ∈ cs, c.isDigit = true)
    (before : List Char) : lowerFrom before cs = cs := by
  induction cs generalizing before with
  | nil => rfl
  | cons c cs ih =>
      obtain ⟨digit, others⟩ := List.forall_mem_cons.mp digits
      obtain ⟨noSigma, same⟩ := lowerChar_digit digit
      rw [lowerFrom, if_neg noSigma, same, ih others]
      rfl

/-- No other text becomes a row of digits in lower case. -/
theorem eq_of_lowerFrom_digits {cs ds : List Char} (digits : ∀ d ∈ ds, d.isDigit = true)
    {before : List Char} (lowered : lowerFrom before cs = ds) : cs = ds := by
  induction cs generalizing before ds with
  | nil => exact lowered
  | cons c cs ih =>
      rw [lowerFrom] at lowered
      split at lowered
      · -- neither form of a sigma is a digit
        subst lowered
        have digit := digits _ List.mem_cons_self
        split at digit <;> cases digit
      · rcases lowerChar_cases c with same | ⟨d, more, begins, noDigit⟩
        · rw [same] at lowered
          subst lowered
          obtain ⟨-, others⟩ := List.forall_mem_cons.mp digits
          exact congrArg (c :: ·) (ih others rfl)
        · rw [begins] at lowered
          subst lowered
          rw [digits d List.mem_cons_self] at noDigit
          cases noDigit

theorem isDigit_of_indexKey? {key : String} (index : indexKey? key ≠ none) :
    ∀ c ∈ key.toList, c.isDigit = true := by
  simp only [indexKey?] at index
  split at index
  · exact absurd rfl index
  · next form =>
      simp only [Bool.or_eq_true, not_or, Bool.not_eq_true, Bool.not_eq_false'] at form
      exact List.all_eq_true.mp form.1.2

theorem eq_of_toLower_index {key s : String} (index : indexKey? key ≠ none)
    (same : toLower s = toLower key) : s = key := by
  have digits := isDigit_of_indexKey? index
  have lowered : lowerChars s.toList = lowerChars key.toList := String.ofList_injective same
  rw [lowerChars, lowerChars, lowerFrom_digits digits] at lowered
  exact String.toList_injective (eq_of_lowerFrom_digits digits lowered)

end JobMatrix.Text
