import JobMatrix.Plan.Basic
import JobMatrix.Proofs.Expr.AnyCase
import JobMatrix.Proofs.Expr.MatrixKeys
import JobMatrix.Proofs.Success

/-! # Keys that a label misses

A combination is refused if the label of its runner reads keys that it lacks.
The planner looks for a key as written, an expression for a key in any case:
whatever an expression does not find is named, but a key that the combination
has in another spelling is named too, although the label would read it.
-/

namespace JobMatrix

open JobMatrix.Expr (Value collectMatrixKeys)

def Matrix.Combination.read (m : Matrix.Combination) (key : String) : Option Value :=
  Value.lookup key (m.entries.map fun (key, value) => (key, JobContext.scalarValue value))

theorem Matrix.Combination.read_eq_none_iff {m : Matrix.Combination} {key : String} :
    m.read key = none ↔ ∀ other ∈ m.keys, Text.toLower other ≠ Text.toLower key := by
  simp only [read, Expr.lookup_eq_none_iff, Dict.keys, List.forall_mem_map]

theorem JobContext.matrixValue_toContext (c : JobContext) (key : String) :
    c.toContext.matrixValue key = .ok ((c.matrix.read key).getD .null) := by
  have found : c.toContext.lookup "matrix" = some (.map [1]
      (c.matrix.entries.map fun (key, value) => (key, scalarValue value))) := rfl
  simp only [Expr.Context.matrixValue, Expr.eval, found]
  rfl

namespace Plan

variable {p : Pipeline} {runners : RunnerTable} {r : Matrix.Resolved}

/-- A combination is refused, and a key is among those that its label is said
    to miss. -/
def NamesMissing (p : Pipeline) (runners : RunnerTable) (r : Matrix.Resolved) (key : String) :
    Prop :=
  ∃ missing, planJob p runners r = .error (.missingKeys p.runsOn missing) ∧ key ∈ missing

theorem bind_ofExpr_ne {α β : Type} {x : Except Expr.Error α} {f : α → Except Cause β}
    {label : String} {missing : List String}
    (later : ∀ a, x = .ok a → f a ≠ .error (.missingKeys label missing)) :
    (ofExpr x >>= f) ≠ .error (.missingKeys label missing) := by
  cases x with
  | error e => nofun
  | ok a => exact later a rfl

/-- A label is refused for its keys if it reads some that are not written so in
    the combination, and the refusal lists all of these. -/
theorem planJob_eq_missingKeys_iff {keys missing : List String}
    (collected : collectMatrixKeys p.runsOn = .ok keys) :
    planJob p runners r = .error (.missingKeys p.runsOn missing) ↔
      (keys.filter fun key => !r.matrix.contains key) ≠ [] ∧
        missing = keys.filter fun key => !r.matrix.contains key := by
  by_cases complete : (keys.filter fun key => !r.matrix.contains key) = []
  · -- no later part of the plan misses a key
    refine iff_of_false (bind_ofExpr_ne fun keys' found => ?_) (fun both => both.1 complete)
    cases collected.symm.trans found
    dsimp only
    rw [complete]
    refine bind_ofExpr_ne fun label _ => ?_
    split
    · exact bind_ofExpr_ne fun env _ => bind_ofExpr_ne fun steps _ => nofun
    · nofun
  · have refused : planJob p runners r =
        .error (.missingKeys p.runsOn (keys.filter fun key => !r.matrix.contains key)) := by
      have nonempty : (!(keys.filter fun key => !r.matrix.contains key).isEmpty) = true := by
        simpa using complete
      rw [planJob, collected]
      exact if_pos nonempty
    rw [refused]
    simp [complete, eq_comm]

theorem namesMissing_iff {keys : List String} (collected : collectMatrixKeys p.runsOn = .ok keys)
    {key : String} (member : key ∈ keys) :
    NamesMissing p runners r key ↔ key ∉ r.matrix.keys := by
  have absent : (!r.matrix.contains key) = true ↔ key ∉ r.matrix.keys := by
    rw [← Dict.get?_eq_none_iff, Dict.contains, Bool.not_eq_true', Option.isSome_eq_false_iff,
      Option.isNone_iff_eq_none]
  simp only [NamesMissing, planJob_eq_missingKeys_iff collected]
  constructor
  · rintro ⟨missing, ⟨-, rfl⟩, named⟩
    exact absent.mp (List.mem_filter.mp named).2
  · intro unwritten
    have named : key ∈ keys.filter fun key => !r.matrix.contains key :=
      List.mem_filter.mpr ⟨member, absent.mpr unwritten⟩
    exact ⟨_, ⟨List.ne_nil_of_mem named, rfl⟩, named⟩

/-- **What a plan calls missing.**  Of the keys that a label reads, a plan names
    those that the combination does not have as written, and an expression
    misses those that it has in no spelling.  So what an expression misses is
    always named, and a key that is named is missed as well unless the
    combination has it in another spelling. -/
theorem missing_iff_unspelled {keys : List String}
    (collected : collectMatrixKeys p.runsOn = .ok keys) {key : String} (member : key ∈ keys) :
    (∀ env os, (JobContext.start r.matrix env os).toContext.matrixValue key =
      .ok ((r.matrix.read key).getD .null)) ∧
    (NamesMissing p runners r key ↔ key ∉ r.matrix.keys) ∧
    (r.matrix.read key = none ↔
      ∀ other ∈ r.matrix.keys, Text.toLower other ≠ Text.toLower key) ∧
    (r.matrix.read key = none → NamesMissing p runners r key) ∧
    ((NamesMissing p runners r key → r.matrix.read key = none) ↔
      (key ∈ r.matrix.keys ∨
        ∀ other ∈ r.matrix.keys, Text.toLower other ≠ Text.toLower key)) := by
  have named : NamesMissing p runners r key ↔ key ∉ r.matrix.keys :=
    namesMissing_iff collected member
  have missed : r.matrix.read key = none ↔
      ∀ other ∈ r.matrix.keys, Text.toLower other ≠ Text.toLower key :=
    Matrix.Combination.read_eq_none_iff
  refine ⟨fun env os => JobContext.matrixValue_toContext _ key, named, missed, fun unread => ?_, ?_⟩
  · exact named.mpr fun written => missed.mp unread key written rfl
  · rw [named, missed, ← or_iff_not_imp_left]

def labelled (runsOn : String) : Pipeline where
  id := "build"
  name := "build"
  runsOn := runsOn
  env := Dict.empty
  strategy := { Matrix.Strategy.default with dimensions := [⟨"os", [.text "ubuntu-latest"]⟩] }
  steps := []
  shell := none

theorem missing_iff_unspelled_arch :
    let p := labelled "$\x7b\x7b matrix.os \x7d\x7d-$\x7b\x7b matrix.Arch \x7d\x7d"
    let r : Matrix.Resolved := ⟨0, Dict.ofList [("os", .text "ubuntu-latest")], false⟩
    p.strategy.resolve = [r] ∧ collectMatrixKeys p.runsOn = .ok ["os", "Arch"] ∧
      "Arch" ∈ ["os", "Arch"] ∧
      NamesMissing p Dict.empty r "Arch" ∧ r.matrix.read "Arch" = none := by
  intro p r
  have collected : collectMatrixKeys p.runsOn = .ok ["os", "Arch"] := by cbv
  have member : "Arch" ∈ ["os", "Arch"] := by decide
  obtain ⟨-, -, missed, named, -⟩ :=
    @missing_iff_unspelled p Dict.empty r _ collected _ member
  have unread : r.matrix.read "Arch" = none := missed.mpr (by decide)
  exact ⟨rfl, collected, member, named unread, unread⟩

/-- A key that the label would read is called missing. -/
theorem missing_in_other_spelling :
    let p := labelled "$\x7b\x7b matrix.OS \x7d\x7d"
    let r : Matrix.Resolved := ⟨0, Dict.ofList [("os", .text "ubuntu-latest")], false⟩
    p.strategy.resolve = [r] ∧ collectMatrixKeys p.runsOn = .ok ["OS"] ∧
      planJob p Dict.empty r = .error (.missingKeys p.runsOn ["OS"]) ∧
      r.matrix.read "OS" = some (.text "ubuntu-latest") ∧
      Expr.interpolate p.runsOn (JobContext.start r.matrix Dict.empty none).toContext =
        .ok "ubuntu-latest" := by
  intro p r
  have collected : collectMatrixKeys p.runsOn = .ok ["OS"] := by cbv
  refine ⟨rfl, collected, ?_, by cbv, by cbv⟩
  exact (planJob_eq_missingKeys_iff collected).mpr (by decide)

end Plan

end JobMatrix
