import JobMatrix.Number.Decimal

/-! # The text of a number

A finite number is written with the fewest decimal digits that read back as
the same number; of several such numerals the nearest is taken.  Numbers from
10⁻⁶ up to 10²¹ are written in positions, all others with a power of ten.
-/

namespace JobMatrix.Number

/-- How the digits of a numeral are laid out. -/
structure Layout where
  /-- The largest place of the point that is still written in positions. -/
  pointMax : Int
  /-- The smallest place of the point that is still written in positions. -/
  pointMin : Int

/-- Positions are used while at most 21 digits stand before the point and at
    most five zeros follow it. -/
def layout : Layout := ⟨21, -5⟩

/-- The place of the point in a positive count of units: the number lies
    between the powers of ten with the exponents one below and at the place. -/
def pointPlace (units : Nat) : Int :=
  ((Nat.toDigits 10 (units * Nat.pow 10 330 / unitsPerOne)).length : Int) - 330

/-- The largest multiple of a power of ten that is not above a count of
    units, in multiples. -/
def floorAt (units : Nat) (exponent : Int) : Nat :=
  if 0 ≤ exponent then units / (unitsPerOne * Nat.pow 10 exponent.toNat)
  else units * Nat.pow 10 (-exponent).toNat / unitsPerOne

/-- Whether a numeral reads back as a positive count of units. -/
def readsBack (units digits : Nat) (exponent : Int) : Bool :=
  ofDecimal false digits exponent == finite false units

/-- Whether a count of units is closer to the upper of two neighbours on a
    decimal grid, or midway with an odd lower neighbour. -/
def closerAbove (units floor : Nat) (exponent : Int) : Bool :=
  let (value, lower, step) :=
    if 0 ≤ exponent then
      (units, floor * (unitsPerOne * Nat.pow 10 exponent.toNat), unitsPerOne * Nat.pow 10 exponent.toNat)
    else (units * Nat.pow 10 (-exponent).toNat, floor * unitsPerOne, unitsPerOne)
  let below := value - lower
  step < 2 * below || (2 * below == step && floor % 2 == 1)

/-- The nearest numeral on a decimal grid that reads back, if one does. -/
def onGrid? (units : Nat) (exponent : Int) : Option Nat :=
  let floor := floorAt units exponent
  let lower := readsBack units floor exponent
  let upper := readsBack units (floor + 1) exponent
  if lower && upper then
    some (if closerAbove units floor exponent then floor + 1 else floor)
  else if lower then some floor
  else if upper then some (floor + 1)
  else none

/-- The first of the given digit counts whose grid has a numeral that reads
    back, as digits with the exponent of the last one. -/
def firstGrid (units : Nat) (point : Int) : List Nat → Nat × Int
  | [] => (floorAt units (point - 17), point - 17)
  | count :: counts =>
      match onGrid? units (point - count) with
      | some digits => (digits, point - count)
      | none => firstGrid units point counts

/-- The shortest digits of a positive count of units, with the exponent of
    the last digit. -/
def shortest (units : Nat) : Nat × Int :=
  firstGrid units (pointPlace units) ((List.range 17).map (· + 1))

def dropEndZeros (digits : List Char) : List Char :=
  (digits.reverse.dropWhile (· = '0')).reverse

def unitsText (units : Nat) : List Char :=
  let (value, exponent) := shortest units
  let all := Nat.toDigits 10 value
  let digits := dropEndZeros all
  let count : Int := digits.length
  let point : Int := all.length + exponent
  if count ≤ point && point ≤ layout.pointMax then
    digits ++ List.replicate (point - count).toNat '0'
  else if 0 < point && point ≤ layout.pointMax then
    digits.take point.toNat ++ '.' :: digits.drop point.toNat
  else if layout.pointMin ≤ point && point ≤ 0 then
    '0' :: '.' :: List.replicate (-point).toNat '0' ++ digits
  else
    let power := point - 1
    let mantissa := match digits with
      | [] => []
      | [d] => [d]
      | d :: more => d :: '.' :: more
    mantissa ++ 'e' :: (if power < 0 then '-' else '+') :: Nat.toDigits 10 power.natAbs

def toText : Number → String
  | nan => "NaN"
  | infinity negative => if negative then "-Infinity" else "Infinity"
  | finite negative units =>
      if units = 0 then "0"
      else String.ofList (if negative then '-' :: unitsText units else unitsText units)

end JobMatrix.Number
