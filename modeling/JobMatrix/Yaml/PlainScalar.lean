import JobMatrix.Yaml.Cursor

/-! # Plain scalars

A plain scalar is text without quotes.  It ends before a colon or comment, in
a flow collection also before one of its marks, and goes on over lines that
are indented enough: the plain style of YAML 1.2.
-/

namespace JobMatrix.Yaml

/-- The part of a line that belongs to a plain scalar; `spaced` tells whether a
    blank stands before it. -/
def plainPart (flow spaced : Bool) : Line → Line
  | [] => []
  | c :: rest =>
      if (c = '#' && spaced) || (c = ':' && startsGap flow rest) || (flow && isFlowMark c) then []
      else c :: plainPart flow (isSpace c) rest

def plainText (flow spaced : Bool) (l : Line) : Line :=
  dropTrailing (plainPart flow spaced l)

/-- Goes on with a plain scalar over the lines that follow.  `text` is what has
    been read, `blanks` counts the empty lines after it, and `stop` is where it
    ends if nothing else belongs to it. -/
def plainMore (flow : Bool) (floor : Nat) (text : List Char) (blanks : Nat) (stop : Cursor) :
    List Line → List Char × Cursor
  | [] => (text, stop)
  | l :: rest =>
      if isEmptyLine l then plainMore flow floor text (blanks + 1) stop rest
      else if indentOf l < floor then (text, stop)
      else
        let body := dropSpaces l
        if body.isEmpty then plainMore flow floor text (blanks + 1) stop rest
        else
          let more := plainText flow true body
          if more.isEmpty then (text, stop)
          else
            let after := body.drop more.length
            let text := text ++ joint blanks ++ more
            let stop := ⟨after, l.length - after.length, rest⟩
            if (dropSpaces after).isEmpty then plainMore flow floor text 0 stop rest
            else (text, stop)

def startsPlain (flow : Bool) : Line → Bool
  | [] => false
  | c :: rest =>
      if c = '-' || c = '?' || c = ':' then !startsGap flow rest
      else !(isFlowMark c || c = '%' || c = '@' || c = '\x60' || c = '|' || c = '>' || c = '#')

/-- Reads a plain scalar whose lines are indented by at least `floor`. -/
def readPlain? (flow : Bool) (floor : Nat) (c : Cursor) : Option (List Char × Cursor) :=
  if startsPlain flow c.line then
    let text := plainText flow false c.line
    let stop := c.drop text.length
    if (dropSpaces stop.line).isEmpty then some (plainMore flow floor text 0 stop c.lines)
    else some (text, stop)
  else none

end JobMatrix.Yaml
