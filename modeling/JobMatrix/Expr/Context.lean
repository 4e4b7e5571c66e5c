import JobMatrix.Expr.Value

/-! # Contexts

A context holds the named values that an expression can read.  The status of
the job is the text under `job.status`.
-/

namespace JobMatrix.Expr

/-- The values that an expression can read, by name. -/
structure Context where
  members : List (String × Value)
  deriving Repr, BEq, Inhabited

namespace Context

def lookup (context : Context) (name : String) : Option Value :=
  Value.lookup name context.members

def status? (context : Context) : Option String :=
  match Entries.get? "job" context.members with
  | some (.map _ job) =>
      match Entries.get? "status" job with
      | some (.text status) => some status
      | _ => none
  | _ => none

def hasStatus (context : Context) (status : String) : Bool :=
  context.status? == some status

def withEnv (context : Context) (env : Dict String) : Context :=
  let (node, entries) := match Entries.get? "env" context.members with
    | some (.map node entries) => (node, entries)
    | _ => ([], [])
  let added := env.entries.map fun (key, value) => (key, Value.text value)
  ⟨Entries.insert "env" (.map node (Entries.insertAll entries added)) context.members⟩

end Context

end JobMatrix.Expr
