import JobMatrix.Data.Basic

/-! # JSON

Plain data has a compact and an indented JSON text.  Maps keep their order, a
number without a finite value is written as null, and a key without a value is
left out.
-/

namespace JobMatrix.Data

/-- The four hexadecimal digits of a code below 65536. -/
def hexDigits (n : Nat) : List Char :=
  [n / 0x1000, n / 0x100, n / 0x10, n].map fun d => Nat.digitChar (d % 16)

def escapeChar (c : Char) : List Char :=
  match c with
  | '"' => ['\\', '"']
  | '\\' => ['\\', '\\']
  | '\n' => ['\\', 'n']
  | '\r' => ['\\', 'r']
  | '\t' => ['\\', 't']
  | '\x08' => ['\\', 'b']
  | '\x0c' => ['\\', 'f']
  | c => if c.toNat < 0x20 then '\\' :: 'u' :: hexDigits c.toNat else [c]

def quote (s : String) : String :=
  String.ofList ('"' :: s.toList.flatMap escapeChar ++ ['"'])

def numberJson (n : Number) : String :=
  if n.isFinite then n.toText else "null"

mutual

def toJson : Data → String
  | absent => "undefined"
  | null => "null"
  | bool value => if value then "true" else "false"
  | number value => numberJson value
  | text value => quote value
  | list items => "[" ++ ",".intercalate (itemsJson items) ++ "]"
  | map entries => "\x7b" ++ ",".intercalate (entriesJson entries) ++ "\x7d"

def itemsJson : List Data → List String
  | [] => []
  | absent :: rest => "null" :: itemsJson rest
  | item :: rest => toJson item :: itemsJson rest

def entriesJson : List (String × Data) → List String
  | [] => []
  | (_, absent) :: rest => entriesJson rest
  | (key, value) :: rest => (quote key ++ ":" ++ toJson value) :: entriesJson rest

end

def bracketed (first last indent : String) (lines : List String) : String :=
  if lines.isEmpty then first ++ last
  else first ++ "\n" ++ ",\n".intercalate (lines.map (indent ++ "  " ++ ·)) ++ "\n" ++ indent ++ last

mutual

/-- The JSON text with two blanks of indent for each level. -/
def toIndentedJson (indent : String) : Data → String
  | list items => bracketed "[" "]" indent (itemsIndented (indent ++ "  ") items)
  | map entries => bracketed "\x7b" "\x7d" indent (entriesIndented (indent ++ "  ") entries)
  | absent => "undefined"
  | null => "null"
  | bool value => if value then "true" else "false"
  | number value => numberJson value
  | text value => quote value

def itemsIndented (indent : String) : List Data → List String
  | [] => []
  | absent :: rest => "null" :: itemsIndented indent rest
  | item :: rest => toIndentedJson indent item :: itemsIndented indent rest

def entriesIndented (indent : String) : List (String × Data) → List String
  | [] => []
  | (_, absent) :: rest => entriesIndented indent rest
  | (key, value) :: rest =>
      (quote key ++ ": " ++ toIndentedJson indent value) :: entriesIndented indent rest

end

end JobMatrix.Data
