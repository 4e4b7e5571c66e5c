import JobMatrix.CommandLine.Setting

/-! # Arguments of a command line

An argument that begins with a dash names options, and every other one is a
word.  An option takes the text behind its equals sign or else the argument
that follows, unless that begins with a dash; given again it collects its
values.  A text that reads as a number becomes one.

The program has its arguments split by `cac`.  What is modelled is the behaviour
of that parser, as far as the options of the program reach; the theorems about
options use one fact of it, `CommandLine.setting_of_mentions`: what an option
with a value is given is what its mentions add up to, in their order.
-/

namespace JobMatrix.CommandLine

/-- What one argument says. -/
inductive Argument
  | word (text : String)
  | off (name : String)
  | options (names : List String) (value : Option String)
  deriving Repr, DecidableEq

/-- Reads one argument.  Behind two dashes stands one name, and otherwise each
    unit is a name. -/
def Argument.ofText (s : String) : Argument :=
  let cs := s.toList
  let dashes := (cs.takeWhile (· = '-')).length
  let body := cs.drop dashes
  if dashes = 0 then .word s
  else match Text.dropStart? "no-".toList body with
    | some name => .off (String.ofList name)
    | none =>
        let name := body.take 1 ++ (body.drop 1).takeWhile (· ≠ '=')
        let value := ((body.drop 1).dropWhile (· ≠ '=')).drop 1
        let names := if dashes = 2 then [String.ofList name]
          else (Text.units name).map fun unit => String.singleton (Text.charOfUnit unit)
        .options names (if value.isEmpty then none else some (String.ofList value))

/-- What a list of arguments says. -/
structure Arguments where
  words : List Scalar
  given : Dict Setting

def operand (s : String) : Scalar :=
  let n := Number.ofText s
  if n.isFinite then .number n else .text s

def Setting.add (value : Scalar) : Option Setting → Setting
  | some (one first) => many [first, value]
  | some (many values) => many (values ++ [value])
  | _ => one value

namespace Arguments

def none : Arguments := ⟨[], Dict.empty⟩

def give (a : Arguments) (name : String) (value : Scalar) : Arguments :=
  if name = "_" then { a with words := a.words ++ [value] }
  else { a with given := a.given.insert name (Setting.add value (a.given.get? name)) }

/-- Gives an option a text.  A switch is on or off; any other text given to a
    switch is a word, and an empty one leaves the switch off. -/
def giveText (switches : List String) (a : Arguments) (name text : String) : Arguments :=
  if name ∈ switches then
    if text = "false" then a.give name (.bool false)
    else if text = "true" then a.give name (.bool true)
    else { a with words := a.words ++ [operand text] }.give name (.bool (text ≠ ""))
  else a.give name (operand text)

def giveAll (switches : List String) (a : Arguments) (text : Option String) :
    List String → Arguments
  | [] => a
  | [name] =>
      match text with
      | some text => a.giveText switches name text
      | .none => a.give name (.bool true)
  | name :: rest => giveAll switches (a.give name (.bool true)) text rest

def read (switches : List String) (a : Arguments) : List String → Arguments
  | [] => a
  | s :: rest =>
      match Argument.ofText s with
      | .word text => read switches { a with words := a.words ++ [.text text] } rest
      | .off name => read switches { a with given := a.given.insert name (.one (.bool false)) } rest
      | .options names (some value) => read switches (a.giveAll switches (some value) names) rest
      | .options names .none =>
          match rest with
          | [] => a.giveAll switches .none names
          | next :: more =>
              if next.toList.head? = some '-' then
                read switches (a.giveAll switches .none names) (next :: more)
              else read switches (a.giveAll switches (some next) names) more

/-- What arguments say; two dashes alone end them. -/
def ofList (switches : List String) (arguments : List String) : Arguments :=
  none.read switches (arguments.takeWhile (· ≠ "--"))

end Arguments

/-- Writes a name in one word: a dash between two small letters makes the
    second one a capital. -/
def oneWord : List Char → List Char
  | a :: '-' :: b :: rest =>
      if a.isLower && b.isLower then a :: b.toUpper :: oneWord rest
      else a :: oneWord ('-' :: b :: rest)
  | a :: rest => a :: oneWord rest
  | [] => []

namespace Arguments

/-- Adds what a name was given; of a name with dots the first part is the
    option. -/
def settle (settings : Dict Setting) (name : String) (value : Setting) : Dict Setting :=
  match Text.split '.' name with
  | option :: _ :: _ =>
      let option := String.ofList (oneWord option.toList)
      if settings.contains option then settings else settings.insert option .parts
  | _ => settings.insert (String.ofList (oneWord name.toList)) value

/-- What each option was given, by the option's name in one word. -/
def settings (a : Arguments) : Dict Setting :=
  a.given.entries.foldl (fun settings (name, value) => settle settings name value) Dict.empty

def setting (a : Arguments) (name : String) : Setting :=
  (a.settings.get? name).getD .missing

end Arguments

end JobMatrix.CommandLine
