import JobMatrix.Text.Units

/-! # Colours

A coloured text stands between an opening and a closing sequence.  Where the
text itself closes a colour, the outer colour is opened again.
-/

namespace JobMatrix.Console

/-- A colour of the terminal. -/
inductive Color
  | green
  | yellow
  | cyan
  | gray
  | brightRed
  deriving Repr, DecidableEq

namespace Color

def code : Color → String
  | green => "32"
  | yellow => "33"
  | cyan => "36"
  | gray => "90"
  | brightRed => "91"

def opening (c : Color) : List Char :=
  '\x1b' :: '[' :: c.code.toList ++ ['m']

def closing : List Char := ['\x1b', '[', '3', '9', 'm']

/-- A text in which each closing sequence is replaced by an opening one, but
    for those that start before a given offset. -/
def reopen (start : List Char) : Nat → List Char → List Char
  | _, [] => []
  | 0, '\x1b' :: '[' :: '3' :: '9' :: 'm' :: rest => start ++ reopen start 0 rest
  | n, c :: rest => c :: reopen start (n - Text.charSize c) rest

/-- A text in a colour.  A closing sequence within the length of the opening
    one stays as it is. -/
def paint (c : Color) (text : String) : String :=
  String.ofList (c.opening ++ reopen c.opening c.opening.length text.toList ++ closing)

end Color

end JobMatrix.Console
