import JobMatrix.CommandLine.Arguments

/-! # Invocations

A command line invokes a command: it plans a workflow if its first word says
so, and runs one otherwise.  Its options have to be known to the command, and
those that are declared with a value have to be given one.

The commands and their options are the program's own.  How a command is chosen,
and that unknown options and missing values are refused before it runs, is the
behaviour of `cac`, which the program leaves this to; of it the theorems use no
more than that a command line is refused, asks for help only, or is carried out
(`CommandLine.outcome_of_carryOut`).
-/

namespace JobMatrix.CommandLine

/-- The commands. -/
inductive Command
  | plan
  | run
  deriving Repr, DecidableEq

/-- An option that takes a value. -/
structure ValuedOption where
  name : String
  declared : String
  deriving Repr, DecidableEq

def valuedOptions : List ValuedOption :=
  [⟨"job", "--job <pattern>"⟩, ⟨"runner", "--runner <label=platform>"⟩,
    ⟨"failFast", "--fail-fast <boolean>"⟩, ⟨"maxParallel", "--max-parallel <count>"⟩]

namespace Command

/-- The options of a command that take no value, by their names in one
    word. -/
def switches : Command → List String
  | plan => ["verbose", "h", "help", "v", "version"]
  | run => ["verbose", "h", "help", "v", "version", "dryRun", "json"]

def knows (c : Command) (name : String) : Bool :=
  name ∈ c.switches || valuedOptions.any (·.name = name)

end Command

/-- Why a command line invokes nothing. -/
inductive UsageError
  | unknownOption (name : String)
  | missingValue (option : ValuedOption)
  deriving Repr, DecidableEq

def UsageError.message : UsageError → String
  | unknownOption name =>
      let dashes := if 1 < Text.size name.toList then "--" else "-"
      "Unknown option \x60" ++ dashes ++ name ++ "\x60"
  | missingValue option => "option \x60" ++ option.declared ++ "\x60 value is missing"

/-- An invoked command. -/
structure Invocation where
  command : Command
  file : Option Scalar
  arguments : Arguments

namespace Invocation

/-- The invocation that arguments make, options unchecked.  A first word that
    names the command is not the file. -/
def ofArguments (arguments : List String) : Invocation :=
  let planned := Arguments.ofList Command.plan.switches arguments
  let ran := Arguments.ofList Command.run.switches arguments
  match planned.words, ran.words with
  | .text "plan" :: rest, _ => ⟨.plan, rest.head?, planned⟩
  | _, .text "" :: rest => ⟨.run, rest.head?, ran⟩
  | _, words => ⟨.run, words.head?, ran⟩

def setting (i : Invocation) (name : String) : Setting :=
  i.arguments.setting name

def asksForHelp (i : Invocation) : Bool :=
  (i.setting "h").isOn || (i.setting "help").isOn
    || (i.command = .run && ((i.setting "v").isOn || (i.setting "version").isOn))

def lacksValue (i : Invocation) (option : ValuedOption) : Bool :=
  match i.setting option.name with
  | .one (.bool _) => true
  | _ => false

def fault? (i : Invocation) : Option UsageError :=
  match i.arguments.settings.keys.find? fun name => !i.command.knows name with
  | some name => some (.unknownOption name)
  | none => (valuedOptions.find? i.lacksValue).map .missingValue

end Invocation

end JobMatrix.CommandLine
