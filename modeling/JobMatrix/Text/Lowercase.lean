import JobMatrix.Text.Case.Lower

/-! # Lower case

A text in lower case has the simple lower-case partner of each character, with
two exceptions: the capital I with a dot becomes two characters, and a capital
sigma at the end of a word takes its final form.
-/

namespace JobMatrix.Text

open JobMatrix.Text.Case

/-- The lower-case form of a character outside any word. -/
def lowerChar (c : Char) : List Char :=
  let n := c.toNat
  if n < 0x80 then [if 0x41 ≤ n && n ≤ 0x5A then Char.ofNat (n + 0x20) else c]
  else if n = 0x130 then ['i', '\u0307']
  else [Char.ofNat (apply lowerRuns n)]

def meetsCased : List Char → Bool
  | [] => false
  | c :: rest =>
      if inRanges ignorableRanges c.toNat then meetsCased rest
      else inRanges casedRanges c.toNat

/-- Lower case of the rest of a text, given what stands before it in reverse
    order. -/
def lowerFrom (before : List Char) : List Char → List Char
  | [] => []
  | c :: rest =>
      let lowered :=
        if c = 'Σ' then [if meetsCased before && !meetsCased rest then 'ς' else 'σ']
        else lowerChar c
      lowered ++ lowerFrom (c :: before) rest

def lowerChars (cs : List Char) : List Char :=
  lowerFrom [] cs

def toLower (s : String) : String :=
  String.ofList (lowerChars s.toList)

end JobMatrix.Text
