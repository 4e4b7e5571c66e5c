import JobMatrix.Proofs.Pattern.Literal
import JobMatrix.Proofs.Pattern.Selecting

/-! # What a plain id matches

The pattern of a plain id passes the symbols of the id one by one, between the
start of a text and its end.  So it matches the texts with as many units as the
id, each unit equal to that of the id without regard to case, and no text of
which the id is only a part.
-/

namespace JobMatrix.Pattern

/-! ## Passing symbols -/

namespace Spot

theorem pass?_append (f : Flags) (forward : Bool) (front behind : List Nat) (s : Spot) :
    pass? f forward (front ++ behind) s =
      (pass? f forward front s).bind (pass? f forward behind) := by
  induction front generalizing s with
  | nil => rfl
  | cons n front ih =>
      rw [List.cons_append, pass?, pass?]
      cases s.step? forward fun m => f.fold m = f.fold n with
      | none => rfl
      | some t => exact ih t

/-- Symbols are passed up to the end of a text if and only if they are the ones
    ahead, folded. -/
theorem pass?_to_end (f : Flags) (codes : List Nat) (s : Spot) :
    (pass? f true codes s).any (·.ahead.isEmpty) = true ↔
      s.ahead.map f.fold = codes.map f.fold := by
  induction codes generalizing s with
  | nil => simp [pass?]
  | cons n codes ih =>
      obtain ⟨passed, ahead, groups⟩ := s
      cases ahead with
      | nil => simp [pass?, step?, next?]
      | cons m ahead =>
          by_cases same : f.fold m = f.fold n
          · have passes := ih ⟨m :: passed, ahead, groups⟩
            simpa [pass?, step?, next?, same] using passes
          · simp [pass?, step?, next?, same]

theorem atFinish_false (s : Spot) : s.atFinish false = s.ahead.isEmpty := by
  unfold atFinish
  split <;> simp [*]

end Spot

namespace Regex

theorem run_ofCodes (f : Flags) (codes : List Nat) (s : Spot) (k : Rest) :
    (ofCodes codes).run f true s k = (Spot.pass? f true codes s).bind k := by
  induction codes generalizing s with
  | nil => rfl
  | cons n codes ih =>
      cases codes with
      | nil =>
          rw [ofCodes, run, Spot.pass?]
          cases s.step? true fun m => f.fold m = f.fold n <;> rfl
      | cons m codes =>
          have parts : ofCodes (n :: m :: codes) = .both (.symbol n) (ofCodes (m :: codes)) := rfl
          rw [parts, run, if_pos rfl, run, Spot.pass?]
          cases s.step? true fun m => f.fold m = f.fold n with
          | none => rfl
          | some t => exact ih t

theorem run_upToEnd (f : Flags) (cs : List Char) (s : Spot) (k : Rest) :
    (upToEnd cs).run f true s k = (Spot.pass? f true (Text.units cs) s).bind fun t =>
      if t.atFinish f.multiline then k t else none := by
  induction cs generalizing s with
  | nil => rfl
  | cons c cs ih =>
      have front : Text.units (c :: cs) = Text.charUnits c ++ Text.units cs := rfl
      rw [upToEnd, run, if_pos rfl, run_ofCodes, front, Spot.pass?_append, Option.bind_assoc]
      congr 1
      funext t
      exact ih t

theorem matchAt?_literal (cs : List Char) (ahead : List Nat) :
    ((literal cs).matchAt? .caseless ⟨[], ahead, []⟩).isSome = true ↔
      ahead.map Flags.caseless.fold = (Text.units cs).map Flags.caseless.fold := by
  have started : (literal cs).matchAt? .caseless ⟨[], ahead, []⟩ =
      (upToEnd cs).run .caseless true ⟨[], ahead, []⟩ some := rfl
  rw [started, run_upToEnd, ← Spot.pass?_to_end .caseless (Text.units cs) ⟨[], ahead, []⟩]
  cases Spot.pass? .caseless true (Text.units cs) ⟨[], ahead, []⟩ with
  | none => rfl
  | some t =>
      have lines : Flags.caseless.multiline = false := rfl
      rw [Option.bind_some, lines, Spot.atFinish_false, Option.any_some]
      cases t.ahead.isEmpty <;> simp

/-- Behind the start of a text a plain id matches nothing. -/
theorem search?_literal_behind (cs : List Char) (n : Nat) (passed ahead : List Nat) :
    (literal cs).search? .caseless (n :: passed) ahead = none := by
  have unmatched (m : Nat) (passed ahead : List Nat) :
      (literal cs).matchAt? .caseless ⟨m :: passed, ahead, []⟩ = none := rfl
  induction ahead generalizing n passed with
  | nil => rw [search?, unmatched]
  | cons m ahead ih =>
      rw [search?, unmatched]
      exact ih m (n :: passed)

theorem search?_literal (cs : List Char) (ahead : List Nat) :
    ((literal cs).search? .caseless [] ahead).isSome = true ↔
      ahead.map Flags.caseless.fold = (Text.units cs).map Flags.caseless.fold := by
  rw [← matchAt?_literal]
  cases ahead with
  | nil => rfl
  | cons n ahead =>
      rw [search?]
      cases (literal cs).matchAt? .caseless ⟨[], n :: ahead, []⟩ with
      | some t => simp
      | none =>
          have loose : Flags.caseless.sticky = false := rfl
          simp [loose, search?_literal_behind]

end Regex

/-! ## Tests of a plain id -/

/-- Texts with as many units, each equal to its counterpart in the way of a
    pattern that ignores case. -/
structure EqualsCaseless (a b : String) : Prop where
  size : Text.size a.toList = Text.size b.toList
  units : ∀ i m n : Nat, (Text.units a.toList)[i]? = some m → (Text.units b.toList)[i]? = some n →
    Flags.caseless.fold m = Flags.caseless.fold n

theorem equalsCaseless_iff {a b : String} : EqualsCaseless a b ↔
    (Text.units a.toList).map Flags.caseless.fold =
      (Text.units b.toList).map Flags.caseless.fold := by
  constructor
  · intro same
    have size : (Text.units a.toList).length = (Text.units b.toList).length := by
      simpa only [Text.length_units] using same.size
    apply List.ext_getElem
    · simpa using size
    · intro i short short'
      rw [List.getElem_map, List.getElem_map]
      exact same.units i _ _ (List.getElem?_eq_getElem _) (List.getElem?_eq_getElem _)
  · intro same
    refine ⟨?_, ?_⟩
    · have size := congrArg List.length same
      simpa only [List.length_map, Text.length_units] using size
    · intro i m n first second
      have each := congrArg (·[i]?) same
      simpa [first, second] using each

instance (a b : String) : Decidable (EqualsCaseless a b) :=
  decidable_of_iff _ equalsCaseless_iff.symm

namespace JobPattern

theorem startingAt_zero (subject : String) :
    startingAt .caseless 0 subject = ([], Text.units subject.toList) := by
  have single : startingAt .caseless 0 subject =
      startingAt.go [] 0 ((Text.units subject.toList).map (·, 1)) := rfl
  rw [single, go_zero]
  · simp [Function.comp_def]
  · intro symbol member
    obtain ⟨unit, -, rfl⟩ := List.mem_map.mp member
    exact Nat.one_pos

/-- A plain id is tested from the start of a text, wherever the last test ended. -/
theorem test_literal (input : List Char) (start : Nat) (subject : String) :
    (literal input).test start subject =
      (decide (EqualsCaseless subject (String.ofList input)), 0) := by
  have forgets : (literal input).flags.remembers = false := rfl
  have found_iff : ((literal input).regex.search? (literal input).flags []
      (Text.units subject.toList)).isSome = true ↔ EqualsCaseless subject (String.ofList input) := by
    rw [equalsCaseless_iff, String.toList_ofList]
    exact Regex.search?_literal input (Text.units subject.toList)
  have started : startingAt (literal input).flags 0 subject = ([], Text.units subject.toList) :=
    startingAt_zero subject
  rw [test, forgets, if_neg Bool.false_ne_true]
  dsimp only
  rw [if_neg (Nat.not_lt_zero _), started]
  dsimp only
  cases found : (literal input).regex.search? (literal input).flags []
      (Text.units subject.toList) with
  | none =>
      have differs : ¬ EqualsCaseless subject (String.ofList input) := by
        rw [← found_iff, found]
        exact Bool.false_ne_true
      rw [decide_eq_false differs]
  | some t =>
      have same : EqualsCaseless subject (String.ofList input) := by
        rw [← found_iff, found]
        rfl
      rw [decide_eq_true same]
      rfl

end JobPattern

/-- **A plain id matches itself.**  A text that is not blank and no regular
    expression between slashes is one pattern, without a warning.  Every test of
    it finds exactly the texts that are equal to it, blanks around it ignored,
    without regard to case, and leaves nothing behind. -/
theorem plain_id_matches_itself {given : String} (visible : Text.trimChars given.toList ≠ [])
    (plain : IsPlainId (Text.trimChars given.toList)) :
    ∃ p, JobPattern.readAll [given] = ([p], []) ∧ ∀ start subject,
      ((p.test start subject).1 = true ↔ EqualsCaseless subject (Text.trim given)) ∧
      (p.test start subject).2 = 0 := by
  refine ⟨.literal (Text.trimChars given.toList), ?_, ?_⟩
  · have shown : (Text.trimChars given.toList).isEmpty = false := by
      simpa using visible
    simp [JobPattern.readAll, shown, JobPattern.ofChars?_plain plain]
  · intro start subject
    rw [JobPattern.test_literal, decide_eq_true_eq]
    exact ⟨Iff.rfl, rfl⟩

theorem plain_id_matches_itself_dotted : ∃ p, JobPattern.readAll [" build.linux "] = ([p], []) ∧
    (p.test 3 "BUILD.Linux").1 = true ∧ (p.test 0 "buildxlinux").1 = false ∧
    (p.test 0 "build.linux-arm").1 = false ∧ (p.test 0 "unit-build.linux").1 = false := by
  have plain : IsPlainId (Text.trimChars " build.linux ".toList) :=
    isPlainId_cons (by decide) "uild.linux".toList
  obtain ⟨p, read, tests⟩ := plain_id_matches_itself (by decide) plain
  have other {subject : String} (differs : ¬ EqualsCaseless subject (Text.trim " build.linux ")) :
      (p.test 0 subject).1 = false :=
    Bool.eq_false_iff.mpr fun matched => differs ((tests 0 subject).1.mp matched)
  refine ⟨p, read, (tests 3 "BUILD.Linux").1.mpr (by decide +kernel), ?_, ?_, ?_⟩
  all_goals exact other (by decide +kernel)

end JobMatrix.Pattern
