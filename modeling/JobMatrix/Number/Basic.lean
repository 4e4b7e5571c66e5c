/-! # Numbers

A number is a binary fraction with at most 53 significant bits, an infinity,
or the result of a meaningless operation.  A finite number is stored as a
count of the smallest positive one, 2⁻¹⁰⁷⁴, so that comparison and
subtraction are integer arithmetic followed by one rounding.
-/

namespace JobMatrix

/-- A double-precision number. -/
inductive Number
  /-- The result of an operation without a value. -/
  | nan
  /-- Beyond every finite number, on one side of zero. -/
  | infinity (negative : Bool)
  /-- A sign and a count of units of 2⁻¹⁰⁷⁴. -/
  | finite (negative : Bool) (units : Nat)
  deriving Repr, DecidableEq, Inhabited

namespace Number

def unitsPerOne : Nat := Nat.pow 2 1074

def unitsLimit : Nat := Nat.pow 2 2098

/-- The quotient of two counts, rounded to 53 significant bits; a tie goes to
    the even neighbour. -/
def roundQuotient (numerator denominator : Nat) : Nat :=
  let shift := (numerator / denominator).log2 + 1 - 53
  let step := denominator * Nat.pow 2 shift
  let floor := numerator / step
  let remainder := numerator % step
  let up := step < 2 * remainder || (2 * remainder == step && floor % 2 == 1)
  (if up then floor + 1 else floor) * Nat.pow 2 shift

/-- The number with a given sign and a count of units already rounded. -/
def ofUnits (negative : Bool) (units : Nat) : Number :=
  if units < unitsLimit then finite negative units else infinity negative

def ofQuotient (negative : Bool) (numerator denominator : Nat) : Number :=
  ofUnits negative (roundQuotient (numerator * unitsPerOne) denominator)

def ofNat (n : Nat) : Number :=
  ofQuotient false n 1

instance (n : Nat) : OfNat Number n := ⟨ofNat n⟩

/-- The number nearest to a count of units with a sign; zero is positive. -/
def ofInt (units : Int) : Number :=
  ofUnits (decide (units < 0)) (roundQuotient units.natAbs 1)

def neg : Number → Number
  | nan => nan
  | infinity negative => infinity !negative
  | finite negative units => finite (!negative) units

instance : Neg Number := ⟨neg⟩

def signedUnits (negative : Bool) (units : Nat) : Int :=
  if negative then -(units : Int) else units

/-- Whether a number is the result of a meaningless operation. -/
def isNaN : Number → Bool
  | nan => true
  | _ => false

def isFinite : Number → Bool
  | finite .. => true
  | _ => false

def isInteger : Number → Bool
  | finite _ units => units % unitsPerOne == 0
  | _ => false

def isZero : Number → Bool
  | finite _ 0 => true
  | _ => false

/-- Whether two numbers are equal; the zeros are, and a meaningless number
    equals nothing. -/
def equals : Number → Number → Bool
  | infinity a, infinity b => a == b
  | finite a m, finite b n => (a == b && m == n) || (m == 0 && n == 0)
  | _, _ => false

def sub : Number → Number → Number
  | nan, _ | _, nan => nan
  | infinity a, infinity b => if a == b then nan else infinity a
  | infinity a, finite .. => infinity a
  | finite .., infinity b => infinity !b
  | finite a m, finite b n =>
      if m == 0 && n == 0 then finite (a && !b) 0
      else ofInt (signedUnits a m - signedUnits b n)

instance : Sub Number := ⟨sub⟩

def isNegative : Number → Bool
  | infinity negative => negative
  | finite negative units => negative && units != 0
  | nan => false

def isPositive : Number → Bool
  | infinity negative => !negative
  | finite negative units => !negative && units != 0
  | nan => false

def less : Number → Number → Bool
  | nan, _ | _, nan => false
  | infinity a, infinity b => a && !b
  | infinity a, finite .. => a
  | finite .., infinity b => !b
  | finite a m, finite b n => decide (signedUnits a m < signedUnits b n)

def toNat? : Number → Option Nat
  | finite negative units =>
      if units % unitsPerOne == 0 && (!negative || units == 0) then some (units / unitsPerOne)
      else none
  | _ => none

/-- The number itself, with the negative zero replaced by the positive one. -/
def plainZero : Number → Number
  | finite _ 0 => finite false 0
  | n => n

end Number

end JobMatrix
