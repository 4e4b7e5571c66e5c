import JobMatrix.Matrix.Basic

/-! # Resolving a matrix

The cross product of the dimensions loses the combinations that a rule
excludes.  Each include rule adds its other fields to the remaining
combinations that agree with it on the dimensions it names; a rule that agrees
with none becomes a combination of its own.
-/

namespace JobMatrix.Matrix

/-- All combinations of values; the last dimension varies fastest, and no
    dimensions have no combinations. -/
def crossProduct (dimensions : List Dimension) : List Combination :=
  if dimensions.isEmpty then []
  else dimensions.foldl
    (fun combinations d => combinations.flatMap fun c => d.values.map fun v => c.insert d.name v)
    [Dict.empty]

def agreesAt (combination rule : Combination) (key : String) : Bool :=
  match combination.get? key, rule.get? key with
  | some a, some b => a.equals b
  | _, _ => false

def agreesOn (combination rule : Combination) (keys : List String) : Bool :=
  keys.all (agreesAt combination rule)

def matchesRule (combination rule : Combination) : Bool :=
  agreesOn combination rule rule.keys

def dimensionKeys (names : List String) (rule : Combination) : List String :=
  rule.keys.filter names.contains

def extraFields (names : List String) (rule : Combination) : Combination :=
  rule.filterKeys fun key => !names.contains key

/-- Whether a combination agrees with an include rule on its dimensions. -/
def accepts (names : List String) (rule combination : Combination) : Bool :=
  agreesOn combination rule (dimensionKeys names rule)

/-- Assigns the other fields of a rule to the combinations that agree with it. -/
def extend (names : List String) (rule : Combination) (survivors : List Combination) :
    List Combination :=
  survivors.map fun c =>
    if accepts names rule c then c.assignAll (extraFields names rule).entries else c

/-- Applies include rules in order: the extended combinations, and the rules
    that agreed with none. -/
def applyIncludes (names : List String) :
    List Combination → List Combination → List Combination × List Combination
  | [], survivors => (survivors, [])
  | rule :: rules, survivors =>
      let (final, unmatched) := applyIncludes names rules (extend names rule survivors)
      (final, if survivors.any (accepts names rule) then unmatched else rule :: unmatched)

/-- The combinations before any rule: the cross product, or one empty
    combination if the matrix says nothing. -/
def candidates (dimensions : List Dimension) (includes : List Combination) : List Combination :=
  if dimensions.isEmpty && includes.isEmpty then [Dict.empty] else crossProduct dimensions

def survivors (dimensions : List Dimension) (excludes includes : List Combination) :
    List Combination :=
  (candidates dimensions includes).filter fun c => !excludes.any (matchesRule c)

def resolve (dimensions : List Dimension) (excludes includes : List Combination) :
    List Resolved :=
  let names := dimensions.map (·.name)
  let (final, unmatched) := applyIncludes names includes (survivors dimensions excludes includes)
  (final.map (·, false) ++ unmatched.map (·, true)).zipIdx.map
    fun ((matrix, synthesized), index) => ⟨index, matrix, synthesized⟩

def Strategy.resolve (s : Strategy) : List Resolved :=
  Matrix.resolve s.dimensions s.excludes s.includes

end JobMatrix.Matrix
