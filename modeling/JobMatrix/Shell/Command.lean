import JobMatrix.Dict
import JobMatrix.Text.Blank
import JobMatrix.Text.Search

/-! # Shell commands

A shell setting is the name of a known shell or a command with a mark for the
path of the script.  The words of the command are a program and its arguments.
The known shells are read as any dictionary is: a name that every dictionary
inherits finds no text, and no command comes of it.
-/

namespace JobMatrix.Shell

/-- A program with its arguments. -/
structure Command where
  program : String
  arguments : List String
  deriving Repr, DecidableEq

def mark : List Char := ['\x7b', '0', '\x7d']

def defaultTemplate : String := "bash -e \x7b0\x7d"

def namedTemplates : Dict String :=
  Dict.ofList [("bash", "bash --noprofile --norc -eo pipefail \x7b0\x7d"),
    ("python", "python \x7b0\x7d"), ("sh", "sh -e \x7b0\x7d")]

/-- The command of a shell setting, with at least one mark; or what is wrong
    with it. -/
def template (setting : Option String) : Except String (List Char) :=
  let trimmed := Text.trim (setting.getD "")
  let chosen := if trimmed = "" then defaultTemplate else trimmed
  let marked := fun text : String =>
    let full := text.toList
    if Text.contains full mark then full else full ++ ' ' :: mark
  match namedTemplates.read? chosen with
  | some (.own named) => .ok (marked named)
  | some (.inherited _) => .error "template.includes is not a function"
  | none => .ok (marked chosen)

/-- The path of the script as it is put between the text before and after a
    mark: a dollar sign with a second one stands for itself, with an ampersand
    for the mark, with a quote for the text on one side. -/
def insertion (before after : List Char) : List Char → List Char
  | [] => []
  | '$' :: '$' :: rest => '$' :: insertion before after rest
  | '$' :: '&' :: rest => mark ++ insertion before after rest
  | '$' :: '\x60' :: rest => before ++ insertion before after rest
  | '$' :: '\x27' :: rest => after ++ insertion before after rest
  | c :: rest => c :: insertion before after rest

/-- A word with the path of the script for each mark, given what stands before
    the rest of it. -/
def fillWord (path before : List Char) : List Char → List Char
  | [] => []
  | '\x7b' :: '0' :: '\x7d' :: after =>
      insertion before after path ++ fillWord path (before ++ mark) after
  | c :: rest => c :: fillWord path (before ++ [c]) rest

def command (setting : Option String) (path : String) : Except String Command := do
  let words := Text.words (← template setting)
  match words.map fun word => String.ofList (fillWord path.toList [] word) with
  | [] => return ⟨"bash", []⟩
  | program :: arguments => return ⟨program, arguments⟩

end JobMatrix.Shell
