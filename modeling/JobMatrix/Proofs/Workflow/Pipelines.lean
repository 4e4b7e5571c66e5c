import JobMatrix.Proofs.Workflow.Steps
import JobMatrix.Proofs.Workflow.Strategies
import JobMatrix.Workflow.File

/-! # What a workflow declares

The pipelines of a workflow that is read are what its map of jobs declares, one
for each entry in order.  Planning and running them rely on nothing else.
-/

namespace JobMatrix.Workflow

/-! ## Labels and environments -/

/-- A label is a text, or the first of a list, without the blanks around it. -/
structure LabelOf (value : Data) (label : String) : Prop where
  declared : ∃ written, (value = .text written ∨ ∃ rest, value = .list (.text written :: rest)) ∧
    label = Text.trim written
  trimmed : Text.trim label = label
  nonempty : label ≠ ""

theorem labelOf_of_readLabel {value : Data} {path label : String}
    (h : readLabel value path = .ok label) : LabelOf value label := by
  unfold readLabel at h
  dsimp only at h
  split at h
  · next written isText =>
      split at h
      · cases h
      next nonempty =>
      cases h
      refine ⟨⟨written, ?_, rfl⟩, Text.trim_trim written, nonempty⟩
      split at isText
      · next items =>
          cases items with
          | nil => cases isText
          | cons first rest =>
              refine .inr ⟨rest, ?_⟩
              rw [show first = .text written from isText]
      · exact .inl isText
  · cases h

/-- An environment has the texts of the inner map, and for the keys that it
    does not name those of the outer map.  Neither gives it the key of the
    prototype. -/
structure EnvOf (outer inner : Data) (env : Dict String) : Prop where
  named : ∀ key entry, inner.get? key = some entry →
    ∃ text, scalarText? entry = some text ∧ (key ≠ Dict.prototypeKey → env.get? key = some text)
  inherited : ∀ key entry, inner.get? key = none → outer.get? key = some entry →
    ∃ text, scalarText? entry = some text ∧ (key ≠ Dict.prototypeKey → env.get? key = some text)
  unnamed : ∀ key, inner.get? key = none → outer.get? key = none → env.get? key = none
  prototype : env.get? Dict.prototypeKey = none

/-- Every key that one of two maps names has its text in an environment. -/
def NamesAll (outer inner : Data) (env : Dict String) : Prop :=
  ∀ key entry, (inner.get? key).or (outer.get? key) = some entry →
    env.get? key = scalarText? entry

theorem EnvOf.namesAll_iff {outer inner : Data} {env : Dict String} (h : EnvOf outer inner env) :
    NamesAll outer inner env ↔
      (inner.get? Dict.prototypeKey).or (outer.get? Dict.prototypeKey) = none := by
  have text_of_named : ∀ key entry, (inner.get? key).or (outer.get? key) = some entry →
      ∃ text, scalarText? entry = some text ∧
        (key ≠ Dict.prototypeKey → env.get? key = some text) := by
    intro key entry named
    rcases Option.or_eq_some_iff.mp named with here | ⟨missing, there⟩
    · exact h.named key entry here
    · exact h.inherited key entry missing there
  constructor
  · intro all
    rw [Option.eq_none_iff_forall_ne_some]
    intro entry named
    obtain ⟨text, scalar, -⟩ := text_of_named _ entry named
    have present := all _ entry named
    rw [h.prototype, scalar] at present
    cases present
  · intro unnamed key entry named
    obtain ⟨text, scalar, written⟩ := text_of_named key entry named
    rw [scalar]
    refine written ?_
    rintro rfl
    rw [unnamed] at named
    cases named

theorem envOf_merge {outer inner : Data} {older newer : Dict String} (outerTexts : Texts outer older)
    (innerTexts : Texts inner newer) : EnvOf outer inner (older.merge newer) := by
  refine ⟨?named, ?inherited, ?unnamed, ?prototype⟩
  case named =>
    intro key entry found
    obtain ⟨text, scalar, written⟩ := innerTexts.named key entry found
    exact ⟨text, scalar, fun plain => by rw [Dict.get?_merge, written plain]; rfl⟩
  case inherited =>
    intro key entry missing found
    obtain ⟨text, scalar, written⟩ := outerTexts.named key entry found
    refine ⟨text, scalar, fun plain => ?_⟩
    rw [Dict.get?_merge, innerTexts.unnamed key missing, written plain]
    rfl
  case unnamed =>
    intro key missing absent
    rw [Dict.get?_merge, innerTexts.unnamed key missing, outerTexts.unnamed key absent]
    rfl
  case prototype =>
    rw [Dict.get?_merge, innerTexts.prototype, outerTexts.prototype]
    rfl

/-! ## Steps of a job -/

theorem stepsOf_of_readSteps {path : String} {index : Nat} {items : List Data}
    {steps : List DeclaredStep} (keyed : ∀ item ∈ items, item.Keyed)
    (h : readSteps path index items = .ok steps) :
    List.Forall₂ (fun place step => StepOf place.2 place.1 step) (items.zipIdx index) steps := by
  induction items generalizing index steps with
  | nil =>
      cases h
      exact .nil
  | cons item rest ih =>
      unfold readSteps at h
      obtain ⟨step, first, h⟩ := exists_of_bind_eq_ok h
      obtain ⟨others, more, h⟩ := exists_of_bind_eq_ok h
      cases h
      obtain ⟨keyedItem, keyedRest⟩ := List.forall_mem_cons.mp keyed
      exact .cons (stepOf_of_readStep keyedItem first) (ih keyedRest more)

theorem nodup_of_firstRepeated? {seen ids : List String} (h : firstRepeated? seen ids = none) :
    ids.Nodup ∧ ∀ id ∈ ids, id ∉ seen := by
  induction ids generalizing seen with
  | nil => exact ⟨List.nodup_nil, nofun⟩
  | cons id rest ih =>
      unfold firstRepeated? at h
      split at h
      · cases h
      next unseen =>
      rw [List.contains_iff_mem] at unseen
      obtain ⟨nodup, fresh⟩ := ih h
      refine ⟨List.nodup_cons.mpr ⟨fun again => fresh id again List.mem_cons_self, nodup⟩, ?_⟩
      intro other member
      rcases List.mem_cons.mp member with rfl | member
      · exact unseen
      · exact fun old => fresh other member (List.mem_cons_of_mem id old)

/-! ## Pipelines -/

/-- A pipeline is what an entry of the map of jobs declares.  Its environment is
    complete exactly if neither map names the key of the prototype. -/
structure PipelineOf (workflowEnv : Data) (entry : String × Data) (p : Pipeline) : Prop where
  id : p.id = entry.1
  label : LabelOf (entry.2.getD "runs-on") p.runsOn
  steps : ∃ items, entry.2.getD "steps" = .list items ∧
    List.Forall₂ (fun place step => StepOf place.2 place.1 step) items.zipIdx p.steps
  distinct : (p.steps.map (·.id)).Nodup
  env : EnvOf workflowEnv (entry.2.getD "env") p.env
  complete : NamesAll workflowEnv (entry.2.getD "env") p.env ↔
    ((entry.2.getD "env").get? Dict.prototypeKey).or (workflowEnv.get? Dict.prototypeKey) = none
  strategy : StrategyOf (entry.2.getD "strategy") p.strategy
  wellFormed : p.strategy.WellFormed

theorem isJob_spec {job : Data} (h : isJob job = true) : ∃ items, job.getD "steps" = .list items := by
  unfold isJob at h
  split at h
  · next items _ isList => exact ⟨items, isList⟩
  · cases h

theorem pipelineOf_of_readJob {workflowEnv : Data} {env : Dict String} {id : String} {job : Data}
    {p : Pipeline} (texts : Texts workflowEnv env) (keyed : job.Keyed)
    (h : readJob env id job = .ok p) : PipelineOf workflowEnv (id, job) p := by
  unfold readJob at h
  dsimp only at h
  split at h
  · cases h
  next shaped =>
  rw [Bool.not_eq_true', Bool.not_eq_false] at shaped
  obtain ⟨items, isList⟩ := isJob_spec shaped
  have keyedItems := keyed.getD "steps"
  rw [isList] at keyedItems h
  obtain ⟨label, readLabel, h⟩ := exists_of_bind_eq_ok h
  obtain ⟨steps, readSteps, h⟩ := exists_of_bind_eq_ok h
  split at h
  · cases h
  next single =>
  obtain ⟨jobEnv, readEnv, h⟩ := exists_of_bind_eq_ok h
  obtain ⟨strategy, readStrategy, h⟩ := exists_of_bind_eq_ok h
  cases h
  have declared := strategyOf_of_readStrategy (keyed.getD "strategy") readStrategy
  have envOf := envOf_merge texts (texts_of_textDict (keyed.getD "env") readEnv)
  exact {
    id := rfl
    label := labelOf_of_readLabel readLabel
    steps := ⟨items, isList, stepsOf_of_readSteps (fun _ => keyedItems.item) readSteps⟩
    distinct := (nodup_of_firstRepeated? single).1
    env := envOf
    complete := envOf.namesAll_iff
    strategy := declared
    wellFormed := declared.wellFormed (keyed.getD "strategy") }

theorem pipelinesOf_of_readJobs {workflowEnv : Data} {env : Dict String}
    {jobs : List (String × Data)} {pipelines : List Pipeline} (texts : Texts workflowEnv env)
    (keyed : ∀ entry ∈ jobs, entry.2.Keyed) (h : readJobs env jobs = .ok pipelines) :
    List.Forall₂ (PipelineOf workflowEnv) jobs pipelines := by
  induction jobs generalizing pipelines with
  | nil =>
      cases h
      exact .nil
  | cons entry rest ih =>
      unfold readJobs at h
      obtain ⟨p, first, h⟩ := exists_of_bind_eq_ok h
      obtain ⟨others, more, h⟩ := exists_of_bind_eq_ok h
      cases h
      obtain ⟨keyedEntry, keyedRest⟩ := List.forall_mem_cons.mp keyed
      exact .cons (pipelineOf_of_readJob texts keyedEntry first) (ih keyedRest more)

/-! ## Workflows -/

/-- Pipelines are what a workflow declares: one for each entry of its map of
    jobs in order, and at least one. -/
structure DeclaredBy (workflow : Data) (pipelines : List Pipeline) : Prop where
  nonempty : pipelines ≠ []
  jobs : ∃ jobs, workflow.getD "jobs" = .map jobs ∧
    List.Forall₂ (PipelineOf (workflow.getD "env")) jobs pipelines

theorem isWorkflow_spec {workflow : Data} (h : isWorkflow workflow = true) :
    ∃ jobs, workflow.getD "jobs" = .map jobs := by
  unfold isWorkflow at h
  split at h
  · next jobs isMap => exact ⟨jobs, isMap⟩
  · cases h

theorem declaredBy_of_read {workflow : Data} {pipelines : List Pipeline} (keyed : workflow.Keyed)
    (h : read workflow = .ok pipelines) : DeclaredBy workflow pipelines := by
  unfold read at h
  dsimp only at h
  split at h
  · cases h
  next shaped =>
  rw [Bool.not_eq_true', Bool.not_eq_false] at shaped
  obtain ⟨jobs, isMap⟩ := isWorkflow_spec shaped
  have keyedJobs := keyed.getD "jobs"
  obtain ⟨env, readEnv, h⟩ := exists_of_bind_eq_ok h
  rw [isMap] at keyedJobs h
  obtain ⟨listed, readJobs, h⟩ := exists_of_bind_eq_ok h
  split at h
  · cases h
  next some =>
  cases h
  rw [Bool.not_eq_true, List.isEmpty_eq_false_iff] at some
  have texts := texts_of_textDict (keyed.getD "env") readEnv
  exact ⟨some, jobs, isMap, pipelinesOf_of_readJobs texts (fun _ => keyedJobs.entry) readJobs⟩

theorem declaredBy_of_ofFile {path : String} {text : Option String} {pipelines : List Pipeline}
    (h : ofFile path text = .ok pipelines) : ∃ source document, text = some source ∧
      Yaml.read source = .ok document ∧ DeclaredBy document pipelines := by
  unfold ofFile at h
  split at h
  · cases h
  next source =>
  split at h
  · cases h
  · cases h
  · next document written =>
      have read := eq_ok_of_mapError h
      exact ⟨source, document, rfl, written, declaredBy_of_read (Yaml.keyed_of_read written) read⟩

/-- Whatever is accepted as a workflow, plain data or the text of a file, the
    pipelines are what it declares.  The data of a file has every key once, as
    the maps of plain data have. -/
theorem accepted_declaredBy (workflow : Data) (path : String) (text : Option String)
    (pipelines : List Pipeline) :
    (workflow.Keyed → read workflow = .ok pipelines → DeclaredBy workflow pipelines) ∧
    (ofFile path text = .ok pipelines →
      ∃ source document, text = some source ∧ Yaml.read source = .ok document ∧
        DeclaredBy document pipelines) := by
  constructor
  · intro keyed accepted
    exact declaredBy_of_read keyed accepted
  · intro accepted
    exact declaredBy_of_ofFile accepted

def twoJobs : String :=
  "env: \x7bA: one\x7d\njobs:\n  build:\n    runs-on: [linux]\n    env: \x7bB: true\x7d\n" ++
  "    strategy: \x7bmatrix: \x7bos: [a, b]\x7d\x7d\n    steps: [run: make, uses: ./a]\n" ++
  "  test: \x7bruns-on: linux, steps: []\x7d\n"

theorem accepted_twoJobs :
    (∃ document pipelines, Yaml.read twoJobs = .ok document ∧ read document = .ok pipelines ∧
      DeclaredBy document pipelines) ∧
    ∃ document pipelines, ofFile "ci.yml" (some twoJobs) = .ok pipelines ∧
      pipelines.map (·.id) = ["build", "test"] ∧ DeclaredBy document pipelines := by
  have ids : (ofFile "ci.yml" (some twoJobs)).toOption.map (·.map (·.id)) =
      some ["build", "test"] := by decide +kernel
  obtain ⟨pipelines, file, ids⟩ := Option.map_eq_some_iff.mp ids
  have file := eq_ok_of_toOption file
  obtain ⟨source, document, same, written, declared⟩ := (accepted_declaredBy .null _ _ _).2 file
  cases same
  refine ⟨⟨document, pipelines, written, ?_, ?_⟩, document, pipelines, file, ids, declared⟩
  all_goals
    have accepted : read document = .ok pipelines := by
      rw [ofFile, written] at file
      exact eq_ok_of_mapError file
  · exact accepted
  · exact (accepted_declaredBy _ "ci.yml" none _).1 (Yaml.keyed_of_read written) accepted

/-- The environment of a job does not get the key of the prototype, which its
    declaration names. -/
theorem prototype_variable_lost :
    let job : Data := .map [("runs-on", .text "linux"),
      ("env", .map [("__proto__", .text "x"), ("A", .text "y")]), ("steps", .list [])]
    (read (.map [("jobs", .map [("build", job)])])).toOption.map (·.map (·.env.entries)) =
      some [[("A", "y")]] := by
  decide +kernel

end JobMatrix.Workflow
