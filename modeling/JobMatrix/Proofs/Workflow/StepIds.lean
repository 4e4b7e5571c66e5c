import Mathlib.Data.List.Nodup
import JobMatrix.Proofs.Workflow.Pipelines

/-! # Repeated ids of steps

A job can be refused although all of its fields and each of its steps is
readable: for an id that two of its steps have.  A step has the id that it
declares, and without one that of its place.  No two places make the same id, so
two steps have one id only if both declare it or one declares what the place of
the other makes.
-/

namespace JobMatrix.Workflow

/-! ## The ids of a list of steps -/

def declaredId? (item : Data) : Option String :=
  match item.getD "id" with
  | .text id => some id
  | _ => none

/-- The ids of the steps of a list from a place on: those that are declared, and
    for the others those of their places. -/
def idsFrom (index : Nat) (items : List Data) : List String :=
  (items.zipIdx index).map fun place => (declaredId? place.1).getD (generatedId place.2)

def stepItems (job : Data) : List Data :=
  match job.getD "steps" with
  | .list items => items
  | _ => []

def stepIds (job : Data) : List String :=
  idsFrom 0 (stepItems job)

theorem StepOf.id_eq {index : Nat} {item : Data} {step : DeclaredStep}
    (h : StepOf index item step) : step.id = (declaredId? item).getD (generatedId index) := by
  unfold declaredId?
  rcases h.id with declared | ⟨nothing, generated⟩
  · rw [declared]
    rfl
  · rw [generated]
    split
    · next isText =>
        rw [isText] at nothing
        cases nothing
    · rfl

theorem ids_of_readSteps {path : String} {index : Nat} {items : List Data}
    {steps : List DeclaredStep} (keyed : ∀ item ∈ items, item.Keyed)
    (h : readSteps path index items = .ok steps) : steps.map (·.id) = idsFrom index items :=
  map_eq_of_forall₂ (stepsOf_of_readSteps keyed h) fun _ _ step => step.id_eq

theorem exists_readSteps {path : String} {index : Nat} {items : List Data}
    (each : ∀ place item, items[place]? = some item →
      ∃ step, readStep item (index + place) (path ++ s!".steps[{index + place}]") = .ok step) :
    ∃ steps, readSteps path index items = .ok steps := by
  induction items generalizing index with
  | nil => exact ⟨[], rfl⟩
  | cons item rest ih =>
      obtain ⟨step, first⟩ := each 0 item rfl
      have others : ∃ steps, readSteps path (index + 1) rest = .ok steps := ih fun place item found => by
        rw [Nat.add_assoc, Nat.add_comm 1]
        exact each (place + 1) item found
      obtain ⟨steps, others⟩ := others
      refine ⟨step :: steps, ?_⟩
      rw [readSteps]
      rw [Nat.add_zero] at first
      rw [first, others]
      rfl

theorem generatedId_inj {place place' : Nat} :
    generatedId place = generatedId place' ↔ place = place' := by
  constructor
  · intro same
    have digits : Nat.toDigits 10 (place + 1) = Nat.toDigits 10 (place' + 1) := by
      simpa [generatedId, ← String.toList_inj] using same
    have numbers := congrArg (Nat.ofDigitChars 10 · 0) digits
    simpa only [Nat.ofDigitChars_ten_toDigits, Nat.add_right_cancel_iff] using numbers
  · rintro rfl
    rfl

/-! ## Repetitions -/

def FirstRepeated (ids : List String) (id : String) : Prop :=
  ∃ before after, ids = before ++ id :: after ∧ before.Nodup ∧ id ∈ before

/-- What the search for a repetition finds, behind ids that were seen. -/
theorem split_of_firstRepeated? {seen ids : List String} {id : String}
    (h : firstRepeated? seen ids = some id) :
    ∃ before after, ids = before ++ id :: after ∧ before.Nodup ∧ (∀ other ∈ before, other ∉ seen) ∧
      (id ∈ before ∨ id ∈ seen) := by
  induction ids generalizing seen with
  | nil => cases h
  | cons first rest ih =>
      rw [firstRepeated?] at h
      split at h
      · next again =>
          rw [List.contains_iff_mem] at again
          cases h
          exact ⟨[], rest, rfl, List.nodup_nil, List.forall_mem_nil _, .inr again⟩
      · next unseen =>
          rw [List.contains_iff_mem] at unseen
          obtain ⟨before, after, rfl, nodup, fresh, repeated⟩ := ih h
          refine ⟨first :: before, after, rfl, ?_, ?_, ?_⟩
          · exact List.nodup_cons.mpr ⟨fun later => fresh first later List.mem_cons_self, nodup⟩
          · exact List.forall_mem_cons.mpr
              ⟨unseen, fun other member old => fresh other member (.tail first old)⟩
          · rcases repeated with early | old
            · exact .inl (.tail first early)
            · rcases List.mem_cons.mp old with rfl | old
              · exact .inl List.mem_cons_self
              · exact .inr old

theorem firstRepeated_of_firstRepeated? {ids : List String} {id : String}
    (h : firstRepeated? [] ids = some id) : FirstRepeated ids id := by
  obtain ⟨before, after, same, nodup, -, repeated⟩ := split_of_firstRepeated? h
  exact ⟨before, after, same, nodup, repeated.resolve_right List.not_mem_nil⟩

theorem FirstRepeated.not_nodup {ids : List String} {id : String} (h : FirstRepeated ids id) :
    ¬ ids.Nodup := by
  obtain ⟨before, after, rfl, -, early⟩ := h
  intro nodup
  exact (List.nodup_append.mp nodup).2.2 id early id List.mem_cons_self rfl

def Declares (items : List Data) (place : Nat) (id : String) : Prop :=
  ∃ item, items[place]? = some item ∧ declaredId? item = some id

def DeclaredTwice (items : List Data) : Prop :=
  ∃ place place' id, place < place' ∧ Declares items place id ∧ Declares items place' id

/-- A step of a list declares the id that the place of another one makes, which
    declares none. -/
def DeclaresPlace (items : List Data) : Prop :=
  ∃ place place' item, Declares items place (generatedId place') ∧ items[place']? = some item ∧
    declaredId? item = none

theorem getElem?_idsFrom (items : List Data) (place : Nat) :
    (idsFrom 0 items)[place]? =
      items[place]?.map fun item => (declaredId? item).getD (generatedId place) := by
  simp [idsFrom, List.getElem?_map, List.getElem?_zipIdx, Function.comp_def]

def SameId (items : List Data) (place place' : Nat) : Prop :=
  ∃ item item', items[place]? = some item ∧ items[place']? = some item' ∧
    (declaredId? item).getD (generatedId place) = (declaredId? item').getD (generatedId place')

theorem not_nodup_iff_sameId {items : List Data} :
    ¬ (idsFrom 0 items).Nodup ↔ ∃ place place', place < place' ∧ SameId items place place' := by
  rw [List.nodup_iff_getElem?_ne_getElem?]
  simp only [getElem?_idsFrom, not_forall, not_not]
  constructor
  · rintro ⟨place, place', before, inside, same⟩
    have inside : place' < items.length := by simpa [idsFrom] using inside
    have inside' : place < items.length := Nat.lt_trans before inside
    rw [List.getElem?_eq_getElem inside, List.getElem?_eq_getElem inside'] at same
    exact ⟨place, place', before, _, _, List.getElem?_eq_getElem inside',
      List.getElem?_eq_getElem inside, Option.some.inj same⟩
  · rintro ⟨place, place', before, item, item', first, second, same⟩
    obtain ⟨inside, -⟩ := List.getElem?_eq_some_iff.mp second
    refine ⟨place, place', before, by simpa [idsFrom] using inside, ?_⟩
    rw [first, second]
    exact congrArg some same

theorem not_nodup_idsFrom_iff {items : List Data} :
    ¬ (idsFrom 0 items).Nodup ↔ DeclaredTwice items ∨ DeclaresPlace items := by
  rw [not_nodup_iff_sameId]
  constructor
  · rintro ⟨place, place', before, item, item', first, second, same⟩
    cases declared : declaredId? item with
    | some id =>
        cases declared' : declaredId? item' with
        | some id' =>
            rw [declared, declared', Option.getD_some, Option.getD_some] at same
            subst same
            exact .inl ⟨place, place', id, before, ⟨item, first, declared⟩, ⟨item', second, declared'⟩⟩
        | none =>
            rw [declared, declared', Option.getD_some, Option.getD_none] at same
            subst same
            exact .inr ⟨place, place', item', ⟨item, first, declared⟩, second, declared'⟩
    | none =>
        cases declared' : declaredId? item' with
        | some id' =>
            rw [declared, declared', Option.getD_some, Option.getD_none] at same
            subst same
            exact .inr ⟨place', place, item, ⟨item', second, declared'⟩, first, declared⟩
        | none =>
            -- two places that make their ids make different ones
            rw [declared, declared', Option.getD_none, Option.getD_none, generatedId_inj] at same
            omega
  · rintro (⟨place, place', id, before, ⟨item, first, declared⟩, item', second, declared'⟩ |
      ⟨place, place', item', ⟨item, first, declared⟩, second, none⟩)
    · exact ⟨place, place', before, item, item', first, second, by rw [declared, declared']; rfl⟩
    · have same : (declaredId? item).getD (generatedId place) =
          (declaredId? item').getD (generatedId place') := by
        rw [declared, none]
        rfl
      rcases Nat.lt_trichotomy place place' with before | rfl | behind
      · exact ⟨place, place', before, item, item', first, second, same⟩
      · cases first.symm.trans second
        cases declared.symm.trans none
      · exact ⟨place', place, behind, item', item, second, first, same.symm⟩

/-! ## Jobs that are readable -/

/-- All fields of a job are readable, and each of its steps on its own. -/
structure Readable (id : String) (job : Data) : Prop where
  shape : isJob job = true
  label : ∃ label, readLabel (job.getD "runs-on") ("jobs." ++ id ++ ".runs-on") = .ok label
  steps : ∀ place item, (stepItems job)[place]? = some item →
    ∃ step, readStep item place ("jobs." ++ id ++ s!".steps[{place}]") = .ok step
  env : ∃ env, textDict (job.getD "env") ("jobs." ++ id ++ ".env") = .ok env
  strategy : ∃ s, readStrategy (job.getD "strategy") ("jobs." ++ id ++ ".strategy") = .ok s

theorem keyed_stepItems {job : Data} (keyed : job.Keyed) : ∀ item ∈ stepItems job, item.Keyed := by
  have steps := keyed.getD "steps"
  unfold stepItems
  split
  · next isList =>
      rw [isList] at steps
      exact fun _ => steps.item
  · exact List.forall_mem_nil _

/-- The ids of its steps decide whether a readable job is refused. -/
theorem Readable.readJob_eq {id : String} {job : Data} (readable : Readable id job)
    (keyed : job.Keyed) (env : Dict String) :
    match firstRepeated? [] (stepIds job) with
    | some repeated =>
        readJob env id job = .error ⟨some ("jobs." ++ id), .duplicateStepId repeated⟩
    | none => ∃ p, readJob env id job = .ok p := by
  obtain ⟨label, readLabel⟩ := readable.label
  obtain ⟨inner, readEnv⟩ := readable.env
  obtain ⟨strategy, readStrategy⟩ := readable.strategy
  obtain ⟨steps, readSteps⟩ : ∃ steps, readSteps ("jobs." ++ id) 0 (stepItems job) = .ok steps :=
    exists_readSteps fun place item found => by
      rw [Nat.zero_add]
      exact readable.steps place item found
  have ids : steps.map (·.id) = stepIds job := ids_of_readSteps (keyed_stepItems keyed) readSteps
  obtain ⟨items, isList⟩ := isJob_spec readable.shape
  rw [stepItems, isList] at readSteps
  unfold readJob
  dsimp only
  rw [readable.shape, readLabel, readEnv, readStrategy, isList]
  simp only [Bool.not_true, Bool.false_eq_true, if_false, bind, Except.bind, readSteps, ids]
  cases firstRepeated? [] (stepIds job) with
  | some repeated => rfl
  | none => exact ⟨_, rfl⟩

theorem Readable.accepted_or_refused {id : String} {job : Data} (readable : Readable id job)
    (keyed : job.Keyed) (env : Dict String) :
    (stepIds job).Nodup ∧ (∃ p, readJob env id job = .ok p) ∨
      ∃ repeated, FirstRepeated (stepIds job) repeated ∧
        readJob env id job = .error ⟨some ("jobs." ++ id), .duplicateStepId repeated⟩ := by
  have read := readable.readJob_eq keyed env
  cases found : firstRepeated? [] (stepIds job) with
  | some repeated =>
      rw [found] at read
      exact .inr ⟨repeated, firstRepeated_of_firstRepeated? found, read⟩
  | none =>
      rw [found] at read
      exact .inl ⟨(nodup_of_firstRepeated? found).1, read⟩

/-! ## Workflows of such jobs -/

/-- An error is about the first job of a list that repeats an id, and names the
    first id that it repeats. -/
def FirstRefused (jobs : List (String × Data)) (e : Error) : Prop :=
  ∃ before entry after repeated, jobs = before ++ entry :: after ∧
    (∀ earlier ∈ before, (stepIds earlier.2).Nodup) ∧ FirstRepeated (stepIds entry.2) repeated ∧
    e = ⟨some ("jobs." ++ entry.1), .duplicateStepId repeated⟩

theorem FirstRefused.cons {entry : String × Data} {rest : List (String × Data)} {e : Error}
    (distinct : (stepIds entry.2).Nodup) (h : FirstRefused rest e) :
    FirstRefused (entry :: rest) e := by
  obtain ⟨before, other, after, repeated, rfl, accepted, first, same⟩ := h
  exact ⟨entry :: before, other, after, repeated, rfl,
    List.forall_mem_cons.mpr ⟨distinct, accepted⟩, first, same⟩

theorem readJobs_of_readable {jobs : List (String × Data)}
    (readable : ∀ entry ∈ jobs, Readable entry.1 entry.2)
    (keyed : ∀ entry ∈ jobs, entry.2.Keyed) (env : Dict String) :
    (∀ entry ∈ jobs, (stepIds entry.2).Nodup) ∧ (∃ ps, readJobs env jobs = .ok ps) ∨
      (∃ entry ∈ jobs, ¬ (stepIds entry.2).Nodup) ∧
        ∃ e, readJobs env jobs = .error e ∧ FirstRefused jobs e := by
  induction jobs with
  | nil => exact .inl ⟨List.forall_mem_nil _, [], rfl⟩
  | cons entry rest ih =>
      obtain ⟨first, readable⟩ := List.forall_mem_cons.mp readable
      obtain ⟨keyedFirst, keyed⟩ := List.forall_mem_cons.mp keyed
      rw [readJobs]
      rcases first.accepted_or_refused keyedFirst env with
        ⟨distinct, p, accepted⟩ | ⟨repeated, repeats, refused⟩
      · rw [accepted]
        rcases ih readable keyed with ⟨others, ps, read⟩ | ⟨⟨other, member, again⟩, e, read, about⟩
        · rw [read]
          exact .inl ⟨List.forall_mem_cons.mpr ⟨distinct, others⟩, _, rfl⟩
        · rw [read]
          exact .inr ⟨⟨other, .tail entry member, again⟩, e, rfl, about.cons distinct⟩
      · rw [refused]
        exact .inr ⟨⟨entry, List.mem_cons_self, repeats.not_nodup⟩, _, rfl,
          [], entry, rest, repeated, rfl, List.forall_mem_nil _, repeats, rfl⟩

theorem read_eq_readJobs {workflow : Data} {jobs : List (String × Data)} {env : Dict String}
    (isMap : workflow.getD "jobs" = .map jobs) (nonempty : jobs ≠ [])
    (readEnv : textDict (workflow.getD "env") "env" = .ok env) :
    read workflow = readJobs env jobs := by
  have shaped : isWorkflow workflow = true := by rw [isWorkflow, isMap]
  unfold read
  rw [shaped, isMap, readEnv]
  cases jobs with
  | nil => exact absurd rfl nonempty
  | cons entry rest =>
      dsimp only [bind, Except.bind]
      cases pipelines : readJobs env (entry :: rest) with
      | error e => rfl
      | ok ps =>
          obtain ⟨p, first, pipelines⟩ := exists_of_bind_eq_ok pipelines
          obtain ⟨others, more, pipelines⟩ := exists_of_bind_eq_ok pipelines
          cases pipelines
          rfl

/-- **When a repeated id is reported.**  A workflow of readable jobs is refused
    exactly if in one of them two steps declare the same id, or a step declares
    the id that the place of a step without one makes.  The error is then about
    the first such job, and names the first id that it repeats. -/
theorem repeated_id_reported {workflow : Data} {jobs : List (String × Data)}
    (keyed : workflow.Keyed) (isMap : workflow.getD "jobs" = .map jobs) (nonempty : jobs ≠ [])
    (readEnv : ∃ env, textDict (workflow.getD "env") "env" = .ok env)
    (readable : ∀ entry ∈ jobs, Readable entry.1 entry.2) :
    ((∃ path id, read workflow = .error ⟨path, .duplicateStepId id⟩) ↔
      ∃ entry ∈ jobs, DeclaredTwice (stepItems entry.2) ∨ DeclaresPlace (stepItems entry.2)) ∧
    ∀ e, read workflow = .error e → FirstRefused jobs e := by
  obtain ⟨env, readEnv⟩ := readEnv
  have keyedJobs := keyed.getD "jobs"
  rw [isMap] at keyedJobs
  rw [read_eq_readJobs isMap nonempty readEnv]
  simp only [← not_nodup_idsFrom_iff]
  rcases readJobs_of_readable readable (fun _ => keyedJobs.entry) env with
    ⟨distinct, ps, accepted⟩ | ⟨repeats, e, refused, about⟩
  · rw [accepted]
    refine ⟨⟨nofun, ?_⟩, nofun⟩
    rintro ⟨entry, member, again⟩
    exact absurd (distinct entry member) again
  · rw [refused]
    refine ⟨⟨fun _ => repeats, fun _ => ?_⟩, ?_⟩
    · obtain ⟨_, _, _, repeated, -, -, -, rfl⟩ := about
      exact ⟨_, repeated, rfl⟩
    · intro e' same
      cases same
      exact about

def makeStep (id : Option String) : Data :=
  .map ((id.map fun id => ("id", Data.text id)).toList ++ [("run", .text "make")])

def makeJob (ids : List (Option String)) : Data :=
  .map [("runs-on", .text "linux"), ("steps", .list (ids.map makeStep))]

def makeWorkflow (ids : List (Option String)) : Data :=
  .map [("jobs", .map [("build", makeJob ids)])]

theorem stepItems_makeJob (ids : List (Option String)) :
    stepItems (makeJob ids) = ids.map makeStep :=
  rfl

theorem keyed_makeWorkflow (ids : List (Option String)) : (makeWorkflow ids).Keyed := by
  have keyedStep (id : Option String) : (makeStep id).Keyed := by
    cases id with
    | none => exact .map (by decide) (List.forall_mem_singleton.mpr (.text _))
    | some id =>
        exact .map (by simp)
          (List.forall_mem_cons.mpr ⟨.text _, List.forall_mem_singleton.mpr (.text _)⟩)
  have keyedSteps : (Data.list (ids.map makeStep)).Keyed :=
    .list (List.forall_mem_map.mpr fun id _ => keyedStep id)
  have keyedJob : (makeJob ids).Keyed :=
    .map (by simp) (List.forall_mem_cons.mpr ⟨.text _, List.forall_mem_singleton.mpr keyedSteps⟩)
  exact .map (by simp) (List.forall_mem_singleton.mpr
    (.map (by simp) (List.forall_mem_singleton.mpr keyedJob)))

theorem readable_makeJob (ids : List (Option String)) : Readable "build" (makeJob ids) where
  shape := rfl
  label := by
    have trimmed : readLabel (.text "linux") "jobs.build.runs-on" = .ok "linux" := by cbv
    exact ⟨"linux", trimmed⟩
  steps := by
    intro place item found
    obtain ⟨id, -, rfl⟩ := List.mem_map.mp (List.mem_of_getElem? found)
    cases id <;> exact ⟨_, rfl⟩
  env := ⟨_, rfl⟩
  strategy := ⟨_, rfl⟩

theorem repeated_id_reported_make :
    Readable "build" (makeJob [some "make", none, some "make"]) ∧
    DeclaredTwice (stepItems (makeJob [some "make", none, some "make"])) ∧
    ∃ path id, read (makeWorkflow [some "make", none, some "make"]) =
      .error ⟨path, .duplicateStepId id⟩ := by
  have readable := readable_makeJob [some "make", none, some "make"]
  have twice : DeclaredTwice (stepItems (makeJob [some "make", none, some "make"])) :=
    ⟨0, 2, "make", by decide, ⟨_, rfl, rfl⟩, ⟨_, rfl, rfl⟩⟩
  obtain ⟨reported, -⟩ := repeated_id_reported (keyed_makeWorkflow _) rfl (List.cons_ne_nil _ _)
    ⟨_, rfl⟩ (List.forall_mem_singleton.mpr readable)
  exact ⟨readable, twice, reported.mpr ⟨_, List.mem_cons_self, .inl twice⟩⟩

theorem id_of_place_reported :
    Readable "build" (makeJob [some "step-2", none]) ∧
    ¬ DeclaredTwice (stepItems (makeJob [some "step-2", none])) ∧
    read (makeWorkflow [some "step-2", none]) =
      .error ⟨some "jobs.build", .duplicateStepId "step-2"⟩ := by
  refine ⟨readable_makeJob _, ?_, ?_⟩
  · rintro ⟨place, place', id, before, -, item, found, declared⟩
    -- only the first step declares an id
    obtain rfl : place' = 1 := by
      obtain ⟨inside, -⟩ := List.getElem?_eq_some_iff.mp found
      rw [stepItems_makeJob, List.length_map, List.length_cons, List.length_singleton] at inside
      omega
    cases found
    cases declared
  · rfl

end JobMatrix.Workflow
