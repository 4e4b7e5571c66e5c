/-! # Searching and splitting texts

Splitting at a character, finding a text inside another one, and replacing
every occurrence.
-/

namespace JobMatrix.Text

/-- The parts of a text between the occurrences of a separator; there is
    always one more part than separators. -/
def splitAt (separator : Char) : List Char → List (List Char)
  | [] => [[]]
  | c :: rest =>
      if c = separator then [] :: splitAt separator rest
      else match splitAt separator rest with
        | [] => [[c]]
        | part :: parts => (c :: part) :: parts

/-- The parts of a text between the occurrences of a separator. -/
def split (separator : Char) (s : String) : List String :=
  (splitAt separator s.toList).map String.ofList

/-- The text after a given beginning, if it begins so. -/
def dropStart? : List Char → List Char → Option (List Char)
  | [], cs => some cs
  | _ :: _, [] => none
  | p :: ps, c :: cs => if p = c then dropStart? ps cs else none

/-- Whether a text begins with another. -/
def startsWith (cs start : List Char) : Bool :=
  (dropStart? start cs).isSome

def endsWith (cs ending : List Char) : Bool :=
  startsWith cs.reverse ending.reverse

/-- The text before and after the first occurrence of a mark. -/
def breakAt? (mark : List Char) : List Char → Option (List Char × List Char)
  | [] => if mark.isEmpty then some ([], []) else none
  | c :: rest =>
      match dropStart? mark (c :: rest) with
      | some after => some ([], after)
      | none => (breakAt? mark rest).map fun (before, after) => (c :: before, after)

/-- Whether a text occurs in another. -/
def contains (cs part : List Char) : Bool :=
  (breakAt? part cs).isSome

/-- The text before and after the last occurrence of a character. -/
def breakLast? (mark : Char) (cs : List Char) : Option (List Char × List Char) :=
  match breakAt? [mark] cs.reverse with
  | some (after, before) => some (before.reverse, after.reverse)
  | none => none

theorem splitAt_eq_splitOn (separator : Char) (cs : List Char) :
    splitAt separator cs = cs.splitOn separator := by
  induction cs with
  | nil => rfl
  | cons c rest ih =>
      rw [splitAt, ih, List.splitOn_cons_eq_if_modifyHead]
      simp only [beq_iff_eq]
      split
      · rfl
      · cases parts : rest.splitOn separator with
        | nil => exact absurd parts (List.splitOn_ne_nil _ _)
        | cons part parts => rfl

theorem notMem_of_mem_splitAt {separator : Char} {cs part : List Char}
    (member : part ∈ splitAt separator cs) : separator ∉ part := by
  fun_induction splitAt separator cs generalizing part with
  | case1 =>
      cases List.mem_singleton.mp member
      exact List.not_mem_nil
  | case2 rest ih =>
      rcases List.mem_cons.mp member with rfl | member
      · exact List.not_mem_nil
      · exact ih member
  | case3 c rest other none ih =>
      cases List.mem_singleton.mp member
      simpa using Ne.symm other
  | case4 c rest other first parts found ih =>
      rcases List.mem_cons.mp member with rfl | member
      · exact List.not_mem_cons_of_ne_of_not_mem (Ne.symm other)
          (ih (found ▸ List.mem_cons_self))
      · exact ih (found ▸ List.mem_cons_of_mem first member)

/-- The parts of a text are the texts without the separator that it joins. -/
theorem splitAt_eq_iff {separator : Char} {cs : List Char} {parts : List (List Char)} :
    splitAt separator cs = parts ↔
      parts ≠ [] ∧ (∀ part ∈ parts, separator ∉ part) ∧ cs = [separator].intercalate parts := by
  constructor
  · rintro rfl
    refine ⟨?_, fun _ => notMem_of_mem_splitAt, ?_⟩
    · rw [splitAt_eq_splitOn]
      exact List.splitOn_ne_nil _ _
    · rw [splitAt_eq_splitOn, List.intercalate_splitOn]
  · rintro ⟨nonempty, plain, rfl⟩
    rw [splitAt_eq_splitOn, List.splitOn_intercalate separator plain nonempty]

theorem dropStart?_eq_some {start cs after : List Char} :
    dropStart? start cs = some after ↔ cs = start ++ after := by
  induction start generalizing cs with
  | nil => simp [dropStart?, eq_comm]
  | cons p ps ih =>
      cases cs with
      | nil => simp [dropStart?]
      | cons c cs =>
          unfold dropStart?
          split
          · next h => simp [ih, h]
          · next h => simp [Ne.symm h]

/-! ### The first occurrence of a mark -/

variable {mark cs before after : List Char}

theorem breakAt?_of_start (h : dropStart? mark cs = some after) :
    breakAt? mark cs = some ([], after) := by
  cases cs with
  | nil => cases mark <;> simp_all [breakAt?, dropStart?]
  | cons c rest => rw [breakAt?, h]

theorem breakAt?_of_no_start {c : Char} (h : dropStart? mark (c :: cs) = none) :
    breakAt? mark (c :: cs) = (breakAt? mark cs).map fun (before, after) => (c :: before, after) := by
  rw [breakAt?, h]

theorem breakAt?_eq_some (h : breakAt? mark cs = some (before, after)) :
    cs = before ++ (mark ++ after) := by
  induction cs generalizing before with
  | nil =>
      simp only [breakAt?, Option.ite_none_right_eq_some, List.isEmpty_iff] at h
      obtain ⟨rfl, h⟩ := h
      cases h
      rfl
  | cons c rest ih =>
      cases start : dropStart? mark (c :: rest) with
      | some found =>
          cases (breakAt?_of_start start).symm.trans h
          simpa using dropStart?_eq_some.mp start
      | none =>
          simp only [breakAt?_of_no_start start, Option.map_eq_some_iff, Prod.mk.injEq] at h
          obtain ⟨⟨before, _⟩, found, rfl, rfl⟩ := h
          simp [ih found]

theorem notMem_of_breakAt? {c : Char} (h : breakAt? [c] cs = some (before, after)) :
    c ∉ before := by
  induction cs generalizing before with
  | nil => cases h
  | cons d rest ih =>
      by_cases same : c = d
      · have start : dropStart? [c] (d :: rest) = some rest := by
          simp [dropStart?, same]
        cases (breakAt?_of_start start).symm.trans h
        exact List.not_mem_nil
      · have noStart : dropStart? [c] (d :: rest) = none := by
          simp [dropStart?, same]
        rw [breakAt?_of_no_start noStart] at h
        obtain ⟨⟨front, behind⟩, found, pair⟩ := Option.map_eq_some_iff.mp h
        cases pair
        exact List.not_mem_cons_of_ne_of_not_mem same (ih found)

theorem breakAt?_isSome_iff : (breakAt? mark cs).isSome ↔ mark <:+: cs := by
  induction cs with
  | nil => cases mark <;> simp [breakAt?]
  | cons c rest ih =>
      rw [List.infix_cons_iff, ← ih]
      cases start : dropStart? mark (c :: rest) with
      | some after =>
          have isStart : mark <+: c :: rest := ⟨after, (dropStart?_eq_some.mp start).symm⟩
          simp [breakAt?_of_start start, isStart]
      | none =>
          have noStart : ¬ mark <+: c :: rest := by
            rintro ⟨after, same⟩
            simp [dropStart?_eq_some.mpr same.symm] at start
          simp [breakAt?_of_no_start start, noStart]

theorem contains_iff : contains cs mark = true ↔ mark <:+: cs :=
  breakAt?_isSome_iff

theorem contains_eq_false_iff : contains cs mark = false ↔ ¬ mark <:+: cs := by
  rw [← contains_iff, Bool.not_eq_true]

/-- A character outside the mark keeps what stands before it apart from an
    occurrence behind it. -/
theorem breakAt?_of_not_infix {c : Char} (fresh : ¬ mark <:+: cs) (outside : c ∉ mark) :
    breakAt? mark (cs ++ c :: (mark ++ after)) = some (cs ++ [c], after) := by
  have noStart {front : List Char} (h : ¬ mark <+: front) :
      dropStart? mark (front ++ c :: (mark ++ after)) = none := by
    cases found : dropStart? mark (front ++ c :: (mark ++ after)) with
    | none => rfl
    | some rest =>
        rcases List.append_eq_append_iff.mp (dropStart?_eq_some.mp found) with
          ⟨more, rfl, behind⟩ | ⟨more, rfl, -⟩
        · -- the mark reaches beyond what stands before the character
          cases more with
          | nil => exact absurd ⟨[], by simp⟩ h
          | cons d more =>
              obtain ⟨rfl, -⟩ := List.cons.inj behind
              simp at outside
        · exact absurd ⟨more, rfl⟩ h
  induction cs with
  | nil =>
      have first := noStart (fun start => fresh start.isInfix)
      have second : dropStart? mark (mark ++ after) = some after := dropStart?_eq_some.mpr rfl
      simp only [List.nil_append] at first ⊢
      rw [breakAt?_of_no_start first, breakAt?_of_start second]
      rfl
  | cons d rest ih =>
      rw [List.infix_cons_iff, not_or] at fresh
      have first := noStart fresh.1
      simp only [List.cons_append] at first ⊢
      rw [breakAt?_of_no_start first, ih fresh.2]
      rfl

/-- What follows a text does not move the first occurrence in it. -/
theorem breakAt?_append {more : List Char} (h : breakAt? mark cs = some (before, after)) :
    breakAt? mark (cs ++ more) = some (before, after ++ more) := by
  induction cs generalizing before with
  | nil =>
      simp only [breakAt?, Option.ite_none_right_eq_some, List.isEmpty_iff] at h
      obtain ⟨rfl, h⟩ := h
      cases h
      exact breakAt?_of_start rfl
  | cons c rest ih =>
      cases start : dropStart? mark (c :: rest) with
      | some found =>
          cases (breakAt?_of_start start).symm.trans h
          refine breakAt?_of_start ?_
          rw [dropStart?_eq_some] at start ⊢
          rw [start, List.append_assoc]
      | none =>
          simp only [breakAt?_of_no_start start, Option.map_eq_some_iff, Prod.mk.injEq] at h
          obtain ⟨⟨front, _⟩, found, rfl, rfl⟩ := h
          have noStart : dropStart? mark (c :: (rest ++ more)) = none := by
            cases longer : dropStart? mark (c :: (rest ++ more)) with
            | none => rfl
            | some behind =>
                -- the mark occurs in `rest`, so it cannot reach beyond `c :: rest`
                have reaches : mark <+: c :: rest ++ more :=
                  ⟨behind, (dropStart?_eq_some.mp longer).symm⟩
                have fits : mark.length ≤ (c :: rest).length := by
                  rw [breakAt?_eq_some found]
                  simp only [List.length_cons, List.length_append]
                  omega
                obtain ⟨tail, same⟩ := List.prefix_of_prefix_length_le reaches
                  (List.prefix_append (c :: rest) more) fits
                rw [dropStart?_eq_some.mpr same.symm] at start
                cases start
          rw [List.cons_append, breakAt?_of_no_start noStart, ih found]
          rfl

theorem infix_cons_of_notMem {c : Char} (outside : c ∉ mark) : mark <:+: c :: cs ↔ mark <:+: cs := by
  rw [List.infix_cons_iff]
  constructor
  · rintro (⟨after, same⟩ | occurs)
    · cases mark with
      | nil => exact List.nil_infix
      | cons d mark =>
          obtain ⟨rfl, -⟩ := List.cons.inj same
          simp at outside
    · exact occurs
  · exact .inr

/-- A character outside a mark, before or behind a text, makes no occurrence. -/
theorem infix_pad_of_notMem {c : Char} (outside : c ∉ mark) :
    mark <:+: c :: (cs ++ [c]) ↔ mark <:+: cs := by
  have reversed : c ∉ mark.reverse := by simpa using outside
  rw [infix_cons_of_notMem outside, ← List.reverse_infix, List.reverse_concat,
    infix_cons_of_notMem reversed, List.reverse_infix]

/-- A text is split in one way at the first occurrence of a character. -/
theorem eq_of_append_mark {c : Char} {xs xs' ys ys' : List Char} (plain : c ∉ xs) (plain' : c ∉ xs')
    (same : xs ++ c :: ys = xs' ++ c :: ys') : xs = xs' ∧ ys = ys' := by
  rcases List.append_eq_append_iff.mp same with ⟨more, rfl, rest⟩ | ⟨more, rfl, rest⟩
  · cases more with
    | nil => exact ⟨(List.append_nil xs).symm, (List.cons.inj rest).2⟩
    | cons d more =>
        obtain ⟨rfl, -⟩ := List.cons.inj rest
        exact absurd (List.mem_append_right xs List.mem_cons_self) plain'
  · cases more with
    | nil => exact ⟨List.append_nil xs', (List.cons.inj rest).2.symm⟩
    | cons d more =>
        obtain ⟨rfl, -⟩ := List.cons.inj rest
        exact absurd (List.mem_append_right xs' List.mem_cons_self) plain

end JobMatrix.Text
