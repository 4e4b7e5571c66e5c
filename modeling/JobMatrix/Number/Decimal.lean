import JobMatrix.Number.Basic
import JobMatrix.Text.Blank

/-! # Reading numbers

A decimal numeral has digits, an optional fraction and an optional power of
ten; the number read is the one nearest to it.  Texts may also write a number
in base sixteen, eight or two.
-/

namespace JobMatrix.Number

/-- The number nearest to `digits · 10 ^ exponent`.  A numeral far outside the
    range of finite numbers is decided by its size alone. -/
def ofDecimal (negative : Bool) (digits : Nat) (exponent : Int) : Number :=
  if digits = 0 then finite negative 0
  else
    let size := (digits.log2 : Int) * 3 / 10 + exponent
    if size > 400 then infinity negative
    else if size < -400 then finite negative 0
    else if 0 ≤ exponent then ofQuotient negative (digits * Nat.pow 10 exponent.toNat) 1
    else ofQuotient negative digits (Nat.pow 10 (-exponent).toNat)

def digitValue? (base : Nat) (c : Char) : Option Nat :=
  let n := c.toNat
  let value :=
    if 0x30 ≤ n && n ≤ 0x39 then n - 0x30
    else if 0x61 ≤ n && n ≤ 0x66 then n - 0x61 + 10
    else if 0x41 ≤ n && n ≤ 0x46 then n - 0x41 + 10
    else base
  if value < base then some value else none

def isDigit (c : Char) : Bool :=
  '0' ≤ c && c ≤ '9'

def digitsValue? (base : Nat) (cs : List Char) : Option Nat :=
  cs.foldlM (fun value c => (digitValue? base c).map (value * base + ·)) 0

def digitsValue (cs : List Char) : Nat :=
  cs.foldl (fun value c => value * 10 + (c.toNat - 0x30)) 0

def takeSign : List Char → Bool × List Char
  | '-' :: rest => (true, rest)
  | '+' :: rest => (false, rest)
  | cs => (false, cs)

/-- The exponent of a numeral: nothing, or a mark, an optional sign and at
    least one digit up to the end. -/
def readExponent? : List Char → Option Int
  | [] => some 0
  | mark :: rest =>
      if mark = 'e' || mark = 'E' then
        let (negative, digits) := takeSign rest
        if digits.isEmpty || !digits.all isDigit then none
        else some (if negative then -(digitsValue digits : Int) else digitsValue digits)
      else none

/-- An unsigned decimal numeral that fills a text: digits, a point and digits,
    of which one side may be missing, and an exponent. -/
def readUnsigned? (negative : Bool) (cs : List Char) : Option Number :=
  let whole := cs.takeWhile isDigit
  let afterWhole := cs.dropWhile isDigit
  let (fraction, rest, hasPoint) := match afterWhole with
    | '.' :: tail => (tail.takeWhile isDigit, tail.dropWhile isDigit, true)
    | other => ([], other, false)
  if whole.isEmpty && fraction.isEmpty then none
  else if !hasPoint && whole.isEmpty then none
  else (readExponent? rest).map fun exponent =>
    ofDecimal negative (digitsValue (whole ++ fraction)) (exponent - fraction.length)

/-- A signed decimal numeral that fills a text. -/
def readDecimal? (cs : List Char) : Option Number :=
  let (negative, rest) := takeSign cs
  readUnsigned? negative rest

/-- A numeral in a given base that fills a text. -/
def readBase (base : Nat) (cs : List Char) : Number :=
  if cs.isEmpty then nan
  else match digitsValue? base cs with
    | some value => ofNat value
    | none => nan

/-- The number that a trimmed text writes: a signed decimal numeral or
    infinity, or an unsigned numeral in base sixteen, eight or two.  The empty
    text writes zero, and any other text no number at all. -/
def ofChars (cs : List Char) : Number :=
  match cs with
  | [] => finite false 0
  | '0' :: mark :: rest =>
      if mark = 'x' || mark = 'X' then readBase 16 rest
      else if mark = 'o' || mark = 'O' then readBase 8 rest
      else if mark = 'b' || mark = 'B' then readBase 2 rest
      else (readDecimal? cs).getD nan
  | _ =>
      let (negative, rest) := takeSign cs
      if rest = "Infinity".toList then infinity negative
      else (readUnsigned? negative rest).getD nan

/-- The number that a text writes, blanks around it ignored. -/
def ofText (s : String) : Number :=
  ofChars (Text.trimChars s.toList)

end JobMatrix.Number
