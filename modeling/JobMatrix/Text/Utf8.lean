import JobMatrix.Text.Units

/-! # Reading UTF-8

Bytes are read as UTF-8.  Bytes that are no part of a character are replaced,
one replacement for each longest beginning of a character that breaks off.
-/

namespace JobMatrix.Text

/-- A character whose first bytes have been read. -/
structure Pending where
  code : Nat
  more : Nat
  low : Nat
  high : Nat
  deriving Repr, DecidableEq

/-- The characters that bytes complete, and the character they leave
    pending. -/
abbrev Reading := List Char × Option Pending

/-- Reads the first byte of a character.  The range of the second byte leaves
    out codes that fewer bytes write, surrogates, and codes that are too
    large. -/
def readFirst (b : Nat) : Reading :=
  if b < 0x80 then ([Char.ofNat b], none)
  else if 0xC2 ≤ b && b ≤ 0xDF then ([], some ⟨b - 0xC0, 0, 0x80, 0xBF⟩)
  else if 0xE0 ≤ b && b ≤ 0xEF then
    ([], some ⟨b - 0xE0, 1, if b = 0xE0 then 0xA0 else 0x80, if b = 0xED then 0x9F else 0xBF⟩)
  else if 0xF0 ≤ b && b ≤ 0xF4 then
    ([], some ⟨b - 0xF0, 2, if b = 0xF0 then 0x90 else 0x80, if b = 0xF4 then 0x8F else 0xBF⟩)
  else ([replacement], none)

/-- Reads one more byte.  A byte that does not continue the pending character
    replaces it and is read afresh. -/
def readByte (pending : Option Pending) (b : Nat) : Reading :=
  match pending with
  | none => readFirst b
  | some p =>
      if p.low ≤ b && b ≤ p.high then
        let code := p.code * 0x40 + (b - 0x80)
        match p.more with
        | 0 => ([Char.ofNat code], none)
        | more + 1 => ([], some ⟨code, more, 0x80, 0xBF⟩)
      else
        let (cs, next) := readFirst b
        (replacement :: cs, next)

def readBytes (pending : Option Pending) : List Nat → List Char
  | [] => if pending.isSome then [replacement] else []
  | b :: rest =>
      let (cs, next) := readByte pending b
      cs ++ readBytes next rest

def ofBytes (bytes : List Nat) : String :=
  String.ofList (readBytes none bytes)

end JobMatrix.Text
