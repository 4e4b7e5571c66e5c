import JobMatrix.Total

/-! # 16-bit units of a text

Offsets, lengths and the order of texts are counted in 16-bit units: a
character up to U+FFFF is one unit, every other character is a pair of
surrogate units.
-/

namespace JobMatrix.Text

def charUnits (c : Char) : List Nat :=
  if c.toNat < 0x10000 then [c.toNat]
  else [0xD800 + (c.toNat - 0x10000) / 0x400, 0xDC00 + (c.toNat - 0x10000) % 0x400]

def units (cs : List Char) : List Nat :=
  cs.flatMap charUnits

def charSize (c : Char) : Nat :=
  if c.toNat < 0x10000 then 1 else 2

/-- The length of a text in 16-bit units. -/
def size (cs : List Char) : Nat :=
  total charSize cs

@[simp] theorem size_nil : size [] = 0 := rfl

@[simp] theorem size_cons (c : Char) (cs : List Char) : size (c :: cs) = charSize c + size cs := by
  simp [size]

@[simp] theorem size_append (as bs : List Char) : size (as ++ bs) = size as + size bs := by
  simp [size]

theorem charSize_pos (c : Char) : 0 < charSize c := by
  unfold charSize
  split <;> decide

theorem length_units (cs : List Char) : (units cs).length = size cs := by
  induction cs with
  | nil => rfl
  | cons c cs ih =>
      have hc : (charUnits c).length = charSize c := by
        unfold charUnits charSize
        split <;> rfl
      simpa [units, hc] using ih

/-- A unit that opens a surrogate pair. -/
def isLead (u : Nat) : Bool :=
  0xD800 ≤ u && u < 0xDC00

/-- A unit that closes a surrogate pair. -/
def isTrail (u : Nat) : Bool :=
  0xDC00 ≤ u && u < 0xE000

def replacement : Char := '\uFFFD'

/-- A single unit as a character; half a pair is replaced. -/
def charOfUnit (u : Nat) : Char :=
  if isLead u || isTrail u then replacement else Char.ofNat u

def firstUnit (c : Char) : Char :=
  if c.toNat < 0x10000 then c else replacement

/-- Reads units back as characters; a surrogate without its partner is
    replaced. -/
def ofUnits : List Nat → List Char
  | [] => []
  | u :: v :: rest =>
      if isLead u && isTrail v then
        Char.ofNat (0x10000 + (u - 0xD800) * 0x400 + (v - 0xDC00)) :: ofUnits rest
      else charOfUnit u :: ofUnits (v :: rest)
  | [u] => [charOfUnit u]

/-- The order of two texts by their first differing unit. -/
def unitsLess : List Nat → List Nat → Bool
  | _, [] => false
  | [], _ :: _ => true
  | a :: as, b :: bs => if a = b then unitsLess as bs else decide (a < b)

/-- Whether one text comes before another, unit by unit. -/
def less (a b : String) : Bool :=
  unitsLess (units a.toList) (units b.toList)

end JobMatrix.Text
