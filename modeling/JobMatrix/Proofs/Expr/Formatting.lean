import JobMatrix.Proofs.Expr.Composition

/-! # Texts with placeholders

The function `format` reads a doubled brace as a brace and a number in braces as
a placeholder.  So a text whose braces are doubled comes out as it was, whatever
stands next to it, and a value takes the place of its placeholder without being
looked at.
-/

namespace JobMatrix.Expr

variable {c : Char} {cs rest : List Char} {values : List Value}

def escapedChar (c : Char) : List Char :=
  if c = '\x7b' ∨ c = '\x7d' then [c, c] else [c]

def escaped (s : String) : String :=
  String.ofList (s.toList.flatMap escapedChar)

def slot (place : Nat) : String :=
  "\x7b" ++ toString place ++ "\x7d"

/-! ### Pieces by the front of the text -/

theorem formatPieces_doubled (brace : c = '\x7b' ∨ c = '\x7d') :
    formatPieces (c :: c :: rest) = .char c :: formatPieces rest := by
  rcases brace with rfl | rfl <;> rw [formatPieces]

theorem formatPieces_cons_of_not_brace (plain : ¬(c = '\x7b' ∨ c = '\x7d')) :
    formatPieces (c :: rest) = .char c :: formatPieces rest := by
  rw [formatPieces] <;> simp_all

theorem formatPieces_escaped_append :
    formatPieces (cs.flatMap escapedChar ++ rest) = cs.map .char ++ formatPieces rest := by
  induction cs with
  | nil => rfl
  | cons c cs ih =>
      rw [List.flatMap_cons, List.append_assoc, List.map_cons, List.cons_append, ← ih]
      by_cases brace : c = '\x7b' ∨ c = '\x7d'
      · rw [escapedChar, if_pos brace]
        exact formatPieces_doubled brace
      · rw [escapedChar, if_neg brace]
        exact formatPieces_cons_of_not_brace brace

theorem isDigit_of_mem_toDigits {place : Nat} (member : c ∈ Nat.toDigits 10 place) :
    Number.isDigit c = true := by
  have digit := Nat.isDigit_of_mem_toDigits (by decide) (by decide) member
  rw [Char.isDigit_iff_toNat] at digit
  exact isDigit_iff.mpr digit

theorem digitsValue_toDigits (place : Nat) :
    Number.digitsValue (Nat.toDigits 10 place) = place := by
  have read : Number.digitsValue = fun cs => Nat.ofDigitChars 10 cs 0 := by
    funext cs
    simp only [Number.digitsValue, Nat.ofDigitChars, Nat.mul_comm]
    rfl
  rw [read]
  exact Nat.ofDigitChars_ten_toDigits

theorem placeholder?_toDigits (place : Nat) :
    placeholder? (Nat.toDigits 10 place ++ '\x7d' :: rest) =
      some (Nat.toDigits 10 place, rest) := by
  have digits : ∀ d ∈ Nat.toDigits 10 place, Number.isDigit d = true :=
    fun d member => isDigit_of_mem_toDigits member
  have closes : Number.isDigit '\x7d' = false := rfl
  simp [placeholder?, List.takeWhile_append_of_pos digits, List.dropWhile_append_of_pos digits,
    closes, Nat.toDigits_ne_nil]

theorem toList_slot (place : Nat) :
    (slot place).toList = '\x7b' :: (Nat.toDigits 10 place ++ ['\x7d']) := by
  simp [slot]

theorem formatPieces_slot_append (place : Nat) :
    formatPieces ((slot place).toList ++ rest) =
      .placeholder place (Nat.toDigits 10 place) :: formatPieces rest := by
  have found := @placeholder?_toDigits rest place
  have brace (more : List Char) : '\x7b' :: more ≠ Nat.toDigits 10 place ++ '\x7d' :: rest := by
    intro same
    rw [← same] at found
    cases found
  rw [toList_slot, List.cons_append, List.append_assoc, List.singleton_append, formatPieces,
    if_pos rfl]
  · split
    · next digits after same =>
        cases found.symm.trans same
        rw [digitsValue_toDigits]
    · next none =>
        cases found.symm.trans none
  · exact fun more _ same => brace more same.symm
  · exact fun more same => by cases same

/-! ### Filling the placeholders -/

theorem formatText_escaped_append (s t : String) :
    formatText (escaped s ++ t) values = s ++ formatText t values := by
  rw [formatText, formatText, String.toList_append, escaped, String.toList_ofList,
    formatPieces_escaped_append, List.flatMap_append, List.flatMap_map, String.ofList_append]
  have kept : (fun c => (FormatPiece.char c).fill values) = fun c => [c] := rfl
  rw [kept, List.flatMap_singleton', String.ofList_toList]

theorem formatText_slot_append (place : Fin values.length) (t : String) :
    formatText (slot place ++ t) values = values[place].toText ++ formatText t values := by
  rw [formatText, formatText, String.toList_append, formatPieces_slot_append, List.flatMap_cons,
    String.ofList_append]
  have filled : (FormatPiece.placeholder place (Nat.toDigits 10 place)).fill values =
      values[place].toText.toList := by
    simp [FormatPiece.fill]
  rw [filled, String.ofList_toList]

theorem formatText_nil : formatText "" values = "" := by
  simp [formatText, formatPieces]

/-- A text with its braces doubled, filled with values, is the text itself with
    the values in their places; what the values look like makes no difference. -/
theorem format_spread (context : Context) (values : List Value) (first : String)
    (rest : List (Fin values.length × String)) :
    apply context "format"
        (.text (spread (escaped first)
          (rest.map fun (place, behind) => (slot place, escaped behind))) :: values) =
      .ok (.text (spread first
        (rest.map fun (place, behind) => (values[place].toText, behind)))) := by
  have filled : formatText (spread (escaped first)
      (rest.map fun (place, behind) => (slot place, escaped behind))) values =
        spread first (rest.map fun (place, behind) => (values[place].toText, behind)) := by
    induction rest generalizing first with
    | nil =>
        rw [List.map_nil, List.map_nil, spread, spread, ← String.append_empty (s := escaped first),
          formatText_escaped_append, formatText_nil, String.append_empty]
    | cons next rest ih =>
        obtain ⟨place, behind⟩ := next
        rw [List.map_cons, List.map_cons, spread, spread, formatText_escaped_append,
          formatText_slot_append, ih]
  rw [← filled]
  rfl

example : formatText "\x7b\x7b0\x7d\x7d\x7b0\x7d\x7d\x7d" [.text "\x7b0\x7d"] =
    "\x7b0\x7d\x7b0\x7d\x7d" := by cbv

end JobMatrix.Expr
