import JobMatrix.Workflow.Basic
import JobMatrix.Text.Blank
import JobMatrix.Text.Search
import JobMatrix.Text.Lowercase

/-! # Runners and platforms

The label of a runner stands for a platform.  Extra labels win over the known
ones, and a label that is not known as a whole is known by the part before
its first dash.  A table of labels is read as any dictionary is, so a label may
also find what every dictionary inherits: a job is bound to that as well, and
no list of platforms has it.
-/

namespace JobMatrix

/-- Extra labels with their platforms. -/
abbrev RunnerTable := Dict Platform

/-- What a job is bound to: a platform, or a member that every table of labels
    inherits. -/
abbrev HostPlatform := Dict.Member Platform

namespace HostPlatform

def osName? : HostPlatform → Option String
  | .own platform => some platform.osName
  | .inherited _ => none

def isAmong (host : HostPlatform) (platforms : List Platform) : Bool :=
  match host with
  | .own platform => platforms.contains platform
  | .inherited _ => false

end HostPlatform

namespace RunnerTable

/-- The labels that are known without extra ones. -/
def known : RunnerTable :=
  Dict.ofList [("windows", .windows), ("ubuntu", .linux), ("macos", .macos), ("linux", .linux)]

/-- The table with its labels in lower case; of several spellings of a label
    the last counts. -/
def lowered (t : RunnerTable) : RunnerTable :=
  Dict.ofList (t.entries.map fun (label, platform) => (Text.toLower label, platform))

def platform? (runners : RunnerTable) (label : String) : Option HostPlatform :=
  let normal := Text.toLower (Text.trim label)
  let table := known.merge runners.lowered
  (table.read? normal).or (table.read? (String.ofList (normal.toList.takeWhile (· ≠ '-'))))

end RunnerTable

end JobMatrix
