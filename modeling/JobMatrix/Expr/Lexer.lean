import JobMatrix.Expr.Token
import JobMatrix.Expr.Error
import JobMatrix.Text.Blank
import JobMatrix.Number.Decimal

/-! # From text to tokens

Blanks separate lexemes.  A name may contain dashes, a quoted text writes a
quote twice, and a dash starts a number only where no operand has ended.
-/

namespace JobMatrix.Expr

open JobMatrix.Number (isDigit)

/-- Whether a character can start a name: a letter of the Latin alphabet, one
    of the two characters that fold to such a letter, or an underscore. -/
def isNameStart (c : Char) : Bool :=
  c.isAlpha || c = '_' || c = '\u017F' || c = '\u212A'

def isNamePart (c : Char) : Bool :=
  isNameStart c || isDigit c || c = '-'

def nameText : List Char → List Char
  | [] => []
  | c :: rest => if isNameStart c then c :: rest.takeWhile isNamePart else []

def fractionText : List Char → List Char
  | '.' :: rest =>
      let digits := rest.takeWhile isDigit
      if digits.isEmpty then [] else '.' :: digits
  | _ => []

def signText : List Char → List Char
  | '+' :: _ => ['+']
  | '-' :: _ => ['-']
  | _ => []

def exponentText : List Char → List Char
  | mark :: rest =>
      let sign := signText rest
      let digits := (rest.drop sign.length).takeWhile isDigit
      if (mark = 'e' || mark = 'E') && !digits.isEmpty then mark :: (sign ++ digits) else []
  | [] => []

/-- The numeral at the front of a text; empty if there is none. -/
def numberText (cs : List Char) : List Char :=
  let sign := if cs.head? = some '-' then ['-'] else []
  let digits := (cs.drop sign.length).takeWhile isDigit
  if digits.isEmpty then []
  else
    let whole := sign ++ digits
    let decimal := whole ++ fractionText (cs.drop whole.length)
    decimal ++ exponentText (cs.drop decimal.length)

/-- The value of a quoted text behind its first quote, and the count of
    characters up to and with the last one. -/
def quotedText? : List Char → Option (List Char × Nat)
  | [] => none
  | '\'' :: '\'' :: rest =>
      (quotedText? rest).map fun (value, count) => ('\'' :: value, count + 2)
  | '\'' :: _ => some ([], 1)
  | c :: rest => (quotedText? rest).map fun (value, count) => (c :: value, count + 1)

/-- The operator at the front of a text, and its count of characters behind
    the first. -/
def operatorAt? : List Char → Option (Operator × Nat)
  | '=' :: '=' :: _ => some (.equal, 1)
  | '!' :: '=' :: _ => some (.notEqual, 1)
  | '<' :: '=' :: _ => some (.lessEqual, 1)
  | '>' :: '=' :: _ => some (.greaterEqual, 1)
  | '&' :: '&' :: _ => some (.and, 1)
  | '|' :: '|' :: _ => some (.or, 1)
  | '<' :: _ => some (.less, 0)
  | '>' :: _ => some (.greater, 0)
  | '!' :: _ => some (.not, 0)
  | _ => none

def punctuator? : Char → Option Punctuator
  | '(' => some .openParen
  | ')' => some .closeParen
  | '[' => some .openBracket
  | ']' => some .closeBracket
  | ',' => some .comma
  | '.' => some .dot
  | _ => none

/-- The lexeme that starts with a character that is not blank, and the count
    of characters it takes of the rest. -/
def scan (position : Nat) (last : Option Lexeme) (c : Char) (rest : List Char) :
    Except Cause (Lexeme × Nat) :=
  if c = '\'' then
    match quotedText? rest with
    | some (value, count) => .ok (.string (String.ofList value), count)
    | none => .error (.unterminatedString position)
  else
    let numeral := numberText (c :: rest)
    if !numeral.isEmpty && (c ≠ '-' || !last.any Lexeme.endsOperand) then
      .ok (.number (String.ofList numeral), numeral.length - 1)
    else
      let name := nameText (c :: rest)
      if !name.isEmpty then .ok (.identifier (String.ofList name), name.length - 1)
      else match operatorAt? (c :: rest) with
        | some (op, count) => .ok (.operator op, count)
        | none => match punctuator? c with
          | some mark => .ok (.punctuator mark, 0)
          | none => .error (.unexpectedCharacter (Text.firstUnit c) position)

/-- The tokens of the rest of a text that starts at an offset, behind a last
    lexeme. -/
def lexFrom (position : Nat) (last : Option Lexeme) : List Char → Except Cause (List Token)
  | [] => .ok [⟨.finish, position⟩]
  | c :: rest =>
      if Text.isBlank c then lexFrom (position + Text.charSize c) last rest
      else
        match scan position last c rest with
        | .error cause => .error cause
        | .ok (lexeme, count) =>
            let width := Text.charSize c + Text.size (rest.take count)
            match lexFrom (position + width) (some lexeme) (rest.drop count) with
            | .error cause => .error cause
            | .ok tokens => .ok (⟨lexeme, position⟩ :: tokens)
termination_by cs => cs.length
decreasing_by
  all_goals simp only [List.length_cons, List.length_drop]; omega

def lex (cs : List Char) : Except Cause (List Token) :=
  lexFrom 0 none cs

def tokenize (expression : String) : Except Error (List Token) :=
  match lex expression.toList with
  | .ok tokens => .ok tokens
  | .error cause => .error ⟨expression, cause⟩

end JobMatrix.Expr
