/-! # Blank characters

The blank characters are the space separators, the line separators, the
control characters from tab to carriage return, the no-break space and the
byte order mark.  Trimming removes them at the ends of a text.
-/

namespace JobMatrix.Text

def isBlank (c : Char) : Bool :=
  let n := c.toNat
  (9 ≤ n && n ≤ 13) || n == 0x20 || n == 0xA0 || n == 0x1680 || (0x2000 ≤ n && n ≤ 0x200A)
    || n == 0x2028 || n == 0x2029 || n == 0x202F || n == 0x205F || n == 0x3000 || n == 0xFEFF

def trimStartChars (cs : List Char) : List Char :=
  cs.dropWhile isBlank

def trimEndChars (cs : List Char) : List Char :=
  (cs.reverse.dropWhile isBlank).reverse

def trimChars (cs : List Char) : List Char :=
  trimEndChars (trimStartChars cs)

/-- Removes blank characters at both ends of a text. -/
def trim (s : String) : String :=
  String.ofList (trimChars s.toList)

/-- Removes blank characters at the end of a text. -/
def trimEnd (s : String) : String :=
  String.ofList (trimEndChars s.toList)

def nonblank (texts : List String) : List String :=
  texts.filter fun text => trim text ≠ ""

/-- The words of a text: its longest runs of characters that are not blank. -/
def words (cs : List Char) : List (List Char) :=
  go [] cs
where
  go (word : List Char) : List Char → List (List Char)
    | [] => if word.isEmpty then [] else [word.reverse]
    | c :: rest =>
        if isBlank c then
          if word.isEmpty then go [] rest else word.reverse :: go [] rest
        else go (c :: word) rest

theorem isBlank_space : isBlank ' ' = true :=
  rfl

/-! ### What trimming leaves -/

variable {cs lead trail : List Char}

theorem dropWhile_isBlank_append (h : ∀ c ∈ trail, isBlank c = true) :
    ∃ trail', (∀ c ∈ trail', isBlank c = true) ∧
      (cs ++ trail).dropWhile isBlank = cs.dropWhile isBlank ++ trail' := by
  rw [List.dropWhile_append]
  split
  · next empty =>
      refine ⟨[], by simp, ?_⟩
      rw [List.isEmpty_iff.mp empty, ← trail.append_nil, List.dropWhile_append_of_pos h]
      rfl
  · exact ⟨trail, h, rfl⟩

theorem trimEndChars_append (h : ∀ c ∈ trail, isBlank c = true) :
    trimEndChars (cs ++ trail) = trimEndChars cs := by
  unfold trimEndChars
  rw [List.reverse_append, List.dropWhile_append_of_pos (by simpa using h)]

/-- Blanks around a text are trimmed away. -/
theorem trimChars_pad (h : ∀ c ∈ lead, isBlank c = true) (h' : ∀ c ∈ trail, isBlank c = true) :
    trimChars (lead ++ (cs ++ trail)) = trimChars cs := by
  obtain ⟨trail', blank, same⟩ := @dropWhile_isBlank_append cs _ h'
  unfold trimChars trimStartChars
  rw [List.dropWhile_append_of_pos h, same, trimEndChars_append blank]

/-- A text is what trimming leaves, with blanks around it. -/
theorem exists_trimChars (cs : List Char) :
    ∃ lead trail, (∀ c ∈ lead, isBlank c = true) ∧ (∀ c ∈ trail, isBlank c = true) ∧
      cs = lead ++ (trimChars cs ++ trail) := by
  have blanks (cs : List Char) : ∀ c ∈ cs.takeWhile isBlank, isBlank c = true :=
    List.all_eq_true.mp List.all_takeWhile
  have split (cs : List Char) : cs.takeWhile isBlank ++ cs.dropWhile isBlank = cs :=
    List.takeWhile_append_dropWhile
  refine ⟨cs.takeWhile isBlank, ((cs.dropWhile isBlank).reverse.takeWhile isBlank).reverse,
    blanks cs, by simpa using blanks (cs.dropWhile isBlank).reverse, ?_⟩
  unfold trimChars trimStartChars trimEndChars
  rw [← List.reverse_append, split, List.reverse_reverse, split]

theorem trimChars_trimChars (cs : List Char) : trimChars (trimChars cs) = trimChars cs := by
  obtain ⟨lead, trail, blank, blank', same⟩ := exists_trimChars cs
  conv => rhs; rw [same]
  exact (trimChars_pad blank blank').symm

theorem trim_trim (s : String) : trim (trim s) = trim s := by
  rw [trim, trim, String.toList_ofList, trimChars_trimChars]

/-- A text that neither starts nor ends with a blank is not trimmed. -/
theorem trimChars_eq_self {first last : Char} (h : isBlank first = false)
    (h' : isBlank last = false) : trimChars (first :: (cs ++ [last])) = first :: (cs ++ [last]) := by
  simp [trimChars, trimStartChars, trimEndChars, h, h']

theorem isEmpty_trimChars_iff (s : String) :
    (trimChars s.toList).isEmpty = true ↔ trim s = "" := by
  rw [trim, String.ofList_eq_empty_iff, List.isEmpty_iff]

theorem nonblank_cons_of_blank {s : String} (blank : trim s = "") (rest : List String) :
    nonblank (s :: rest) = nonblank rest := by
  simp [nonblank, blank]

theorem nonblank_cons {s : String} (filled : trim s ≠ "") (rest : List String) :
    nonblank (s :: rest) = s :: nonblank rest := by
  simp [nonblank, filled]

theorem trimChars_eq_nil (h : ∀ c ∈ cs, isBlank c = true) : trimChars cs = [] := by
  rw [← cs.append_nil, ← ([] : List Char).append_nil, trimChars_pad h (by simp)]
  rfl

end JobMatrix.Text
