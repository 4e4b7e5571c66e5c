import JobMatrix.Matrix.Basic
import JobMatrix.Pattern.Selection
import JobMatrix.Plan.Runner

/-! # Settings of a command line

An option of a command line can be given with one value or with several, each
a text, a number or a truth value.  Every setting is read from what its option
was given.
-/

namespace JobMatrix.CommandLine

/-- What an option was given. -/
inductive Setting
  | missing
  | one (value : Scalar)
  | many (values : List Scalar)
  | parts
  deriving Repr, DecidableEq

/-- Why a setting cannot be used. -/
inductive SettingError
  | failFast (text : String)
  | maxParallel (text : String)
  | runner (entry : String)
  | noText
  | noTexts
  deriving Repr, DecidableEq

def SettingError.message : SettingError → String
  | failFast text =>
      "Invalid --fail-fast value \"" ++ text ++ "\". Expected \"true\" or \"false\"."
  | maxParallel text =>
      "Invalid --max-parallel value \"" ++ text ++ "\". Expected a positive integer."
  | runner entry =>
      "Invalid --runner value \"" ++ entry ++ "\". Expected \"label=linux|macos|windows\"."
  | noText => "value.trim is not a function"
  | noTexts => "item.split is not a function"

namespace Setting

/-- Whether a setting is switched on: it was given something that is neither
    false, nor zero, nor empty. -/
def isOn : Setting → Bool
  | missing => false
  | one (.bool value) => value
  | one (.number n) => !(n.isZero || n.isNaN)
  | one (.text s) => !s.isEmpty
  | many _ | parts => true

/-- Whether a failed job cancels the others, if it is set. -/
def failFast : Setting → Except SettingError (Option Bool)
  | missing => .ok none
  | one (.bool value) => .ok (some value)
  | one (.text s) =>
      let word := Text.toLower (Text.trim s)
      if word = "true" || word = "on" then .ok (some true)
      else if word = "false" || word = "off" then .ok (some false)
      else .error (.failFast s)
  | one (.number _) | many _ | parts => .error .noText

def limit (written : String) (n : Number) : Except SettingError (Option Number) :=
  if n.isInteger && !n.less 1 then .ok (some n) else .error (.maxParallel written)

/-- The limit on jobs that run at once, if it is set. -/
def maxParallel : Setting → Except SettingError (Option Number)
  | missing => .ok none
  | one (.number n) => limit n.toText n
  | one (.text s) => limit s (Number.ofText s)
  | one (.bool _) | many _ | parts => .error .noText

def textsOf : List Scalar → Except SettingError (List String)
  | [] => .ok []
  | .text s :: rest => (textsOf rest).map (s :: ·)
  | _ :: _ => .error .noTexts

/-- The entries of a setting that lists texts, with commas inside them; one
    value that is no text counts for none. -/
def entries : Setting → Except SettingError (List String)
  | one (.text s) => .ok (Text.split ',' s)
  | many values => (textsOf values).map fun texts => texts.flatMap (Text.split ',')
  | missing | one _ | parts => .ok []

def patternTexts (s : Setting) : Except SettingError (List String) :=
  s.entries.map fun entries => (entries.map Text.trim).filter (· ≠ "")

/-- The pipelines that a setting selects, with warnings about its invalid
    patterns. -/
def selectJobs (s : Setting) (pipelines : List Pipeline) :
    Except SettingError (List Pipeline × List Console.Line) :=
  s.patternTexts.map fun texts =>
    let (patterns, warnings) := Pattern.JobPattern.readAll texts
    (Pattern.select patterns pipelines, warnings)

/-- The label and the platform that an entry without blanks around it maps. -/
def mapping? (entry : List Char) : Option (String × Platform) :=
  match Text.breakAt? ['='] entry with
  | none => none
  | some (label, name) =>
      let label := Text.trimChars label
      if label.isEmpty then none
      else (Platform.ofName? (Text.toLower (Text.trim (String.ofList name)))).map
        fun platform => (String.ofList label, platform)

/-- The mappings of entries; blank entries are left out. -/
def mappings : List String → Except SettingError (List (String × Platform))
  | [] => .ok []
  | entry :: rest =>
      let trimmed := Text.trimChars entry.toList
      if trimmed.isEmpty then mappings rest
      else match mapping? trimmed with
        | some m => (mappings rest).map (m :: ·)
        | none => .error (.runner entry)

def runners (s : Setting) : Except SettingError RunnerTable := do
  let entries ← s.entries
  return Dict.empty.assignAll (← mappings entries)

end Setting

end JobMatrix.CommandLine
