import JobMatrix.Text.Search
import JobMatrix.Text.Lowercase

/-! # File paths

A path is a text of segments between slashes.  A relative path is resolved
against a directory, and the extension of its last segment tells the format of
a file.
-/

namespace JobMatrix.Path

/-- The segments of a path that name something, with each parent step taken;
    `done` holds the segments before them, the last one first. -/
def climb (done : List (List Char)) : List (List Char) → List (List Char)
  | [] => done.reverse
  | segment :: rest =>
      if segment.isEmpty || segment = ['.'] then climb done rest
      else if segment = ['.', '.'] then climb done.tail rest
      else climb (segment :: done) rest

def normalize (path : String) : String :=
  let segments := climb [] (Text.splitAt '/' path.toList)
  "/" ++ "/".intercalate (segments.map String.ofList)

def resolve (directory path : String) : String :=
  if Text.startsWith path.toList ['/'] then normalize path
  else normalize (directory ++ "/" ++ path)

def lastSegment (path : String) : List Char :=
  let trimmed := (path.toList.reverse.dropWhile (· = '/'))
  (trimmed.takeWhile (· ≠ '/')).reverse

/-- The extension of a path: its last segment from the last dot on.  A segment
    without a dot, with only one at its start, or of two dots has none. -/
def extension (path : String) : String :=
  let segment := lastSegment path
  match Text.breakLast? '.' segment with
  | none => ""
  | some (stem, ending) =>
      if stem.isEmpty || segment = ['.', '.'] then "" else String.ofList ('.' :: ending)

def isYaml (path : String) : Bool :=
  let ending := Text.toLower (extension path)
  ending == ".yml" || ending == ".yaml"

end JobMatrix.Path
