import JobMatrix.Proofs.Expr.Dependence
import JobMatrix.Proofs.Plan.Planning
import JobMatrix.Proofs.Run.Preparation

/-! # The environment of a step, planned and run

A step is named when its job is planned, and its script is filled in when its
turn comes.  The script sees the environment of the step with its templates
filled in; the name sees it as it was declared.  So a name and a script of one
template agree where the environment is plain text, and where it is not the
name shows a template and the script its value.

Both see the same runner if the job is bound to a platform.  A job that is bound
to what every table of labels inherits is planned without a name of its
operating system, and runs with the empty one.
-/

namespace JobMatrix

open JobMatrix.Expr (Value interpolate interpolateDict interpolateEntries Embeds contextNames
  callsStatus parse segments)

/-! ### One variable as a template -/

namespace Expr

/-- A key as written goes before all other spellings. -/
theorem lookup_of_get? {entries : List (String × Value)} {name : String} {value : Value}
    (found : Entries.get? name entries = some value) : Value.lookup name entries = some value := by
  have spelled : entries.find? (fun entry => entry.1 == name) = some (name, value) := by
    induction entries with
    | nil => cases found
    | cons entry rest ih =>
        obtain ⟨key, first⟩ := entry
        by_cases here : key = name
        · subst here
          rw [Entries.get?, if_pos rfl] at found
          cases found
          simp
        · rw [Entries.get?, if_neg here] at found
          simp [here, ih found]
  simp only [Value.lookup, spelled]

def IsVariable (name template : String) : Prop :=
  ∃ source, segments template.toList = [.expression source] ∧
    parse (String.ofList (Text.trimChars source)) =
      .ok (.index (.context "env") (.literal (.string name)))

theorem IsVariable.readsOnly {name template : String} (isVariable : IsVariable name template) :
    ReadsOnly ["matrix", "runner", "env"] template := by
  obtain ⟨source, parts, parsed⟩ := isVariable
  refine forall_embeds parts fun source' member => ?_
  cases List.mem_singleton.mp member
  exact ⟨_, parsed, by simp [contextNames], rfl⟩

end Expr

/-! ### Contexts of a job with an environment -/

namespace JobContext

variable {c c' : JobContext} {job : PlannedJob}

/-- The variables of a step are seen like those of its job, and shadow them. -/
theorem withEnv_toContext (c : JobContext) (env : Dict String) :
    c.toContext.withEnv env = { c with env := c.env.merge env }.toContext := by
  have merged := Entries.insertAll_map Value.text c.env.entries env.entries
  -- A job always has an environment, so its member is written in place.
  have written : c.toContext.withEnv env =
      ⟨Entries.replace "env" (.map [2] (Entries.insertAll
        (c.env.entries.map (Prod.map id Value.text)) (env.entries.map (Prod.map id Value.text))))
        c.toContext.members⟩ := rfl
  rw [written, merged]
  rfl

theorem value_matrix (c : JobContext) : c.toContext.value "matrix" =
    .map [1] (c.matrix.entries.map fun (key, value) => (key, scalarValue value)) := rfl

theorem value_runner (c : JobContext) :
    c.toContext.value "runner" =
      .map [0] (c.runnerOs.toList.map fun name => ("os", .text name)) := rfl

theorem value_env (c : JobContext) : c.toContext.value "env" =
    .map [2] (c.env.entries.map (Prod.map id Value.text)) := rfl

theorem interpolate_planning {template : String} (reads : Expr.ReadsOnly ["matrix", "env"] template)
    (matrix : Matrix.Combination) (jobEnv env : Dict String) (host : HostPlatform)
    (runnerOs : Option String) :
    interpolate template ((planning matrix jobEnv host).toContext.withEnv env) =
      interpolate template ((start matrix jobEnv runnerOs).toContext.withEnv env) := by
  apply reads.interpolate_eq
  simp [withEnv_toContext, value_matrix, value_env, planning, start]

theorem planning_eq_start {p : Pipeline} {runners : RunnerTable} {r : Matrix.Resolved}
    (binds : Plan.Binds p runners r job) {platform : Platform} (own : job.platform = .own platform) :
    planning job.matrix job.env job.platform = start job.matrix job.env job.runnerOs := by
  rw [binds.runnerOs, own]
  exact planning_own job.matrix job.env platform

variable (isOf : c.IsOf job) {template : String}
include isOf

/-- What a template reads that is settled by the plan, it reads from the first
    context of the job to the last. -/
theorem IsOf.interpolate_withEnv (reads : Expr.ReadsOnly ["matrix", "runner", "env"] template)
    (env : Dict String) : interpolate template (c.toContext.withEnv env) =
      interpolate template ((start job.matrix job.env job.runnerOs).toContext.withEnv env) := by
  obtain ⟨status, steps, rfl⟩ := isOf
  apply reads.interpolate_eq
  simp [withEnv_toContext, value_matrix, value_runner, value_env]

theorem IsOf.interpolate_eq (reads : Expr.ReadsOnly ["matrix", "runner", "env"] template) :
    interpolate template c.toContext =
      interpolate template (start job.matrix job.env job.runnerOs).toContext := by
  obtain ⟨status, steps, rfl⟩ := isOf
  apply reads.interpolate_eq
  simp [value_matrix, value_runner, value_env]

theorem IsOf.interpolate_unread (reads : Expr.ReadsOnly ["matrix", "runner"] template)
    (env env' : Dict String) : interpolate template (c.toContext.withEnv env) =
      interpolate template ((start job.matrix job.env job.runnerOs).toContext.withEnv env') := by
  obtain ⟨status, steps, rfl⟩ := isOf
  apply reads.interpolate_eq
  simp [withEnv_toContext, value_matrix, value_runner]

theorem IsOf.interpolateDict_eq {templates : Dict String} (reads : ∀ entry ∈ templates.entries,
      Expr.ReadsOnly ["matrix", "runner", "env"] entry.2) :
    interpolateDict templates c.toContext =
      interpolateDict templates (start job.matrix job.env job.runnerOs).toContext := by
  have same : interpolateEntries c.toContext templates.entries =
      interpolateEntries (start job.matrix job.env job.runnerOs).toContext templates.entries :=
    Expr.interpolateEntries_congr fun entry member => isOf.interpolate_eq (reads entry member)
  rw [interpolateDict, interpolateDict, same]

end JobContext

/-! ### Names and scripts of one template -/

/-- A variable of a step is its text, whatever the job calls by that name. -/
theorem Expr.IsVariable.interpolate_withEnv {name template : String}
    (isVariable : IsVariable name template) (c : JobContext) {env : Dict String} {value : String}
    (found : env.get? name = some value) :
    interpolate template (c.toContext.withEnv env) = .ok value := by
  obtain ⟨source, parts, parsed⟩ := isVariable
  have merged : Entries.get? name (c.env.merge env).entries = some value := by
    have first := Dict.get?_merge c.env env name
    rwa [found, Option.some_or] at first
  have read : Value.lookup name ((c.env.merge env).entries.map (Prod.map id Value.text)) =
      some (.text value) := by
    apply lookup_of_get?
    rw [Entries.get?_map, merged]
    rfl
  have evaluated : eval (c.toContext.withEnv env)
      (.index (.context "env") (.literal (.string name))) = .ok (.text value) := by
    rw [JobContext.withEnv_toContext, eval, eval_context, JobContext.value_env]
    exact congrArg (fun found => Except.ok (found.getD .null)) read
  rw [interpolate_eq, parts, renderAll, render_of_parse _ parsed, evaluate, evaluated]
  simp [Except.map, renderAll, bind, Except.bind, pure, Except.pure, Value.toText]

theorem PlannedStep.prepare_eq {step : PlannedStep} {script text : String} {c : Expr.Context}
    (run : step.run = some script)
    (filled : ∀ env, interpolateDict step.env c = .ok env →
      interpolate script (c.withEnv env) = .ok text) :
    step.prepare c = do
      let env ← interpolateDict step.env c
      let inputs ← interpolateDict step.inputs (c.withEnv env)
      return { step with env, inputs, run := some text } := by
  rw [prepare, run]
  cases evaluated : interpolateDict step.env c with
  | error e => rfl
  | ok env =>
      simp only [bind, Except.bind, filled env evaluated]

/-- A step whose name and script are one template, and of which no template reads
    what is settled only when the steps before it are over. -/
structure DeclaredStep.Shows (declared : DeclaredStep) (template : String) : Prop where
  name : declared.name = template
  run : declared.run = some template
  reads : Expr.ReadsOnly ["matrix", "runner", "env"] template
  env : ∀ entry ∈ declared.env.entries, Expr.ReadsOnly ["matrix", "runner", "env"] entry.2

namespace Plan

variable {p : Pipeline} {runners : RunnerTable} {r : Matrix.Resolved} {job : PlannedJob}
  {declared : DeclaredStep} {step : PlannedStep} {template : String}

theorem AsDeclared.env (h : AsDeclared declared step) : step.env = declared.env := by
  rw [AsDeclared] at h
  rw [h]

theorem AsDeclared.run (h : AsDeclared declared step) : step.run = declared.run := by
  rw [AsDeclared] at h
  rw [h]

section Shows

variable (planned : planJob p runners r = .ok job)
  (beside : (declared, step) ∈ p.steps.zip job.steps) (shows : declared.Shows template)
include planned beside shows

theorem prepare_of_agreeing (seen : (∃ platform, job.platform = .own platform) ∨
      Expr.ReadsOnly ["matrix", "env"] template)
    (agreeing : Expr.ReadsOnly ["matrix", "runner"] template ∨
      interpolateDict declared.env (JobContext.start job.matrix job.env job.runnerOs).toContext =
        .ok declared.env)
    {c : JobContext} (isOf : c.IsOf job) : step.prepare c.toContext = do
      let env ← interpolateDict step.env c.toContext
      let inputs ← interpolateDict step.inputs (c.toContext.withEnv env)
      return { step with env, inputs, run := some step.name } := by
  have plan := planStep_of_planJob planned beside
  have asDeclared := asDeclared_of_planStep plan
  have named : interpolate template ((JobContext.start job.matrix job.env
      job.runnerOs).toContext.withEnv declared.env) = .ok step.name := by
    rw [← interpolate_of_planStep plan, shows.name]
    rcases seen with ⟨platform, own⟩ | blind
    · rw [JobContext.planning_eq_start (binds_of_planJob planned) own]
    · exact (JobContext.interpolate_planning blind _ _ _ _ _).symm
  apply PlannedStep.prepare_eq (asDeclared.run.trans shows.run)
  intro env evaluated
  rcases agreeing with unread | plain
  -- What the environment becomes may differ from what was declared, but unseen.
  · rw [isOf.interpolate_unread unread env declared.env, named]
  · rw [asDeclared.env, isOf.interpolateDict_eq shows.env, plain] at evaluated
    cases evaluated
    rw [isOf.interpolate_withEnv shows.reads, named]

theorem script_of_prepared {c : JobContext} (isOf : c.IsOf job) {prepared : PlannedStep}
    (filled : step.prepare c.toContext = .ok prepared) :
    ∃ env script,
      interpolateDict declared.env (JobContext.start job.matrix job.env job.runnerOs).toContext =
        .ok env ∧
      interpolate template
        ((JobContext.start job.matrix job.env job.runnerOs).toContext.withEnv env) = .ok script ∧
      prepared.run = some script := by
  have asDeclared := asDeclared_of_planStep (planStep_of_planJob planned beside)
  obtain ⟨env, evaluated, filled⟩ := exists_of_bind_eq_ok filled
  obtain ⟨inputs, -, filled⟩ := exists_of_bind_eq_ok filled
  rw [asDeclared.env, isOf.interpolateDict_eq shows.env] at evaluated
  rw [asDeclared.run, shows.run] at filled
  obtain ⟨script, rendered, filled⟩ := exists_of_bind_eq_ok filled
  cases filled
  rw [isOf.interpolate_withEnv shows.reads] at rendered
  exact ⟨env, script, evaluated, rendered, rfl⟩

end Shows

/-- **What a step is called, and what it runs.**  Take a step of a planned job
    whose name and script are one template, which reads no more than the plan
    settles.  Each action of the job starts with a step that is filled in in a
    context of the job, and in all of these the script is the template in the
    environment that the templates of the step become, while the name is the
    template in the environment as declared.  The name sees the context of the
    plan, which is the one in which the job starts wherever the job is bound to a
    platform.  Then, or if the template does not read the runner, the following
    holds: if the template does not read the environment, or that of the step is
    what its own templates become, then the step gets its name as its script, and
    fails to be filled in only by its environment or its inputs.  If the template
    is one variable of the step, then name and script agree exactly if what was
    declared is what it becomes. -/
theorem name_and_script (planned : planJob p runners r = .ok job)
    (beside : (declared, step) ∈ p.steps.zip job.steps) (shows : declared.Shows template) :
    let seen := (JobContext.planning job.matrix job.env job.platform).toContext
    let first := (JobContext.start job.matrix job.env job.runnerOs).toContext
    (∀ w place pool, Run.Pool.Executes w place job pool → ∀ j prepared context,
      .actionStart j prepared context ∈ Run.happenings pool.log place →
      context.IsOf job ∧ ∃ pair ∈ p.steps.zip job.steps,
        pair.2.prepare context.toContext = .ok prepared) ∧
    (∀ platform, job.platform = .own platform → seen = first) ∧
    interpolate template (seen.withEnv declared.env) = .ok step.name ∧
    (∀ (c : JobContext) prepared, c.IsOf job → step.prepare c.toContext = .ok prepared →
      ∃ env script, interpolateDict declared.env first = .ok env ∧
        interpolate template (first.withEnv env) = .ok script ∧ prepared.run = some script) ∧
    ((∃ platform, job.platform = .own platform) ∨ Expr.ReadsOnly ["matrix", "env"] template →
      Expr.ReadsOnly ["matrix", "runner"] template ∨
        interpolateDict declared.env first = .ok declared.env →
      ∀ c : JobContext, c.IsOf job → step.prepare c.toContext = do
        let env ← interpolateDict step.env c.toContext
        let inputs ← interpolateDict step.inputs (c.toContext.withEnv env)
        return { step with env, inputs, run := some step.name }) ∧
    ∀ name value, Expr.IsVariable name template → declared.env.get? name = some value →
      step.name = value ∧
      ∀ (c : JobContext) prepared, c.IsOf job → step.prepare c.toContext = .ok prepared →
        (prepared.run = some step.name ↔ interpolate value first = .ok value) := by
  intro seen first
  have named : interpolate template (seen.withEnv declared.env) = .ok step.name := by
    rw [← shows.name]
    exact interpolate_of_planStep (planStep_of_planJob planned beside)
  refine ⟨?_, fun platform own => ?_, named,
    fun c prepared isOf => script_of_prepared planned beside shows isOf,
    fun same agreeing c => prepare_of_agreeing planned beside shows same agreeing, ?_⟩
  · intro w place pool run j prepared context started
    obtain ⟨isOf, s, member, filled⟩ := run.prepared _ started
    have paired : List.Forall₂ (fun d s => (d, s) ∈ p.steps.zip job.steps) p.steps job.steps :=
      List.forall₂_iff_zip.mpr ⟨(binds_of_planJob planned).steps.length_eq, fun member => member⟩
    obtain ⟨d, -, among⟩ := exists_of_forall₂ paired member
    exact ⟨isOf, (d, s), among, filled⟩
  · exact congrArg JobContext.toContext
      (JobContext.planning_eq_start (binds_of_planJob planned) own)
  · intro name value isVariable found
    rw [isVariable.interpolate_withEnv _ found] at named
    cases named
    refine ⟨rfl, fun c prepared isOf filled => ?_⟩
    obtain ⟨env, script, evaluated, rendered, run⟩ :=
      script_of_prepared planned beside shows isOf filled
    obtain ⟨text, same, there⟩ := Expr.get?_of_interpolateDict evaluated found
    rw [isVariable.interpolate_withEnv _ there] at rendered
    cases rendered
    rw [run, same, Option.some.injEq, Except.ok.injEq]

def greetingStep (greeting : String) : DeclaredStep where
  id := "step-1"
  name := "$\x7b\x7b env.GREETING \x7d\x7d"
  platforms := none
  inputs := Dict.empty
  env := Dict.ofList [("GREETING", greeting)]
  condition := none
  run := some "$\x7b\x7b env.GREETING \x7d\x7d"
  uses := none
  shell := none
  workingDirectory := none
  tolerance := .always false

def greets (greeting : String) : Pipeline where
  id := "build"
  name := "build"
  runsOn := "ubuntu-latest"
  env := Dict.empty
  strategy := .default
  steps := [greetingStep greeting]
  shell := none

def greetingPlanned (greeting : String) : PlannedStep :=
  { (greetingStep greeting).toStep with name := greeting, policy := .fatal }

def greetingJob (greeting : String) : PlannedJob where
  index := 0
  name := "build"
  matrix := Dict.empty
  env := Dict.empty
  steps := [greetingPlanned greeting]
  platform := .own .linux
  runnerOs := some "Linux"
  runsOn := "ubuntu-latest"
  shell := none

theorem isVariable_greeting :
    Expr.IsVariable "GREETING" "$\x7b\x7b env.GREETING \x7d\x7d" :=
  ⟨" env.GREETING ".toList, by cbv, by cbv⟩

theorem planJob_greets (greeting : String) :
    planJob (greets greeting) Dict.empty ⟨0, Dict.empty, false⟩ = .ok (greetingJob greeting) := by
  have collected : Expr.collectMatrixKeys "ubuntu-latest" = .ok [] := by cbv
  have label : interpolate "ubuntu-latest"
      (JobContext.start Dict.empty Dict.empty none).toContext = .ok "ubuntu-latest" := by cbv
  have trimmed : Text.trim "ubuntu-latest" = "ubuntu-latest" := by cbv
  have found : RunnerTable.platform? Dict.empty (Text.trim "ubuntu-latest") =
      some (.own .linux) := by
    decide +kernel
  have name : interpolate "$\x7b\x7b env.GREETING \x7d\x7d"
      ((JobContext.planning Dict.empty Dict.empty (.own .linux)).toContext.withEnv
        (Dict.ofList [("GREETING", greeting)])) = .ok greeting :=
    isVariable_greeting.interpolate_withEnv _ rfl
  have planned : planSteps (JobContext.planning Dict.empty Dict.empty (.own .linux))
      (greets greeting).steps = .ok (greetingJob greeting).steps := by
    simp only [greets, greetingStep, planSteps, planStep, name]
    rfl
  refine planJob_eq_ok_iff.mpr ⟨[], "ubuntu-latest", .own .linux, Dict.empty, _, collected, rfl, label,
    found, rfl, planned, ?_⟩
  rw [trimmed]
  rfl

theorem shows_greeting {greeting : String} {parts : List Expr.Segment}
    (same : segments greeting.toList = parts)
    (each : ∀ part ∈ parts, part = .expression " runner.os ".toList ∨ ∃ c, part = .char c) :
    (greetingStep greeting).Shows "$\x7b\x7b env.GREETING \x7d\x7d" := by
  refine ⟨rfl, rfl, isVariable_greeting.readsOnly, fun entry listed => ?_⟩
  obtain rfl := List.mem_singleton.mp listed
  have tree : parse (String.ofList (Text.trimChars " runner.os ".toList)) =
      .ok (.index (.context "runner") (.literal (.string "os"))) := by cbv
  refine Expr.forall_embeds same fun source member => ?_
  obtain here | ⟨c, here⟩ := each _ member
  · cases here
    exact ⟨_, tree, by decide, rfl⟩
  · cases here

theorem name_and_script_plain :
    let first := JobContext.start Dict.empty Dict.empty (some "Linux")
    let declared := greetingStep "hello"
    let step := greetingPlanned "hello"
    planJob (greets "hello") Dict.empty ⟨0, Dict.empty, false⟩ = .ok (greetingJob "hello") ∧
      (declared, step) ∈ (greets "hello").steps.zip (greetingJob "hello").steps ∧
      declared.Shows "$\x7b\x7b env.GREETING \x7d\x7d" ∧
      interpolateDict declared.env first.toContext = .ok declared.env ∧
      step.name = "hello" ∧ (step.prepare first.toContext).map (·.run) = .ok (some "hello") := by
  intro first declared step
  have planned := planJob_greets "hello"
  have beside : (declared, step) ∈ (greets "hello").steps.zip (greetingJob "hello").steps :=
    List.mem_singleton.mpr rfl
  have parts : segments "hello".toList = "hello".toList.map .char := by cbv
  have shows := shows_greeting parts (by simp)
  have plain : interpolateDict declared.env first.toContext = .ok declared.env := by cbv
  obtain ⟨-, -, -, -, agrees, reads⟩ := name_and_script planned beside shows
  have named : step.name = "hello" := (reads "GREETING" "hello" isVariable_greeting rfl).1
  refine ⟨planned, beside, shows, plain, named, ?_⟩
  rw [agrees (.inl ⟨_, rfl⟩) (.inr plain) first (JobContext.isOf_start _), named]
  rw [show step.env = declared.env from rfl, plain]
  rfl

/-- The name of a step shows a template where its script shows the value. -/
theorem name_and_script_template :
    let first := JobContext.start Dict.empty Dict.empty (some "Linux")
    let declared := greetingStep "hello $\x7b\x7b runner.os \x7d\x7d"
    let step := greetingPlanned "hello $\x7b\x7b runner.os \x7d\x7d"
    planJob (greets "hello $\x7b\x7b runner.os \x7d\x7d") Dict.empty ⟨0, Dict.empty, false⟩ =
        .ok (greetingJob "hello $\x7b\x7b runner.os \x7d\x7d") ∧
      declared.Shows "$\x7b\x7b env.GREETING \x7d\x7d" ∧
      step.name = "hello $\x7b\x7b runner.os \x7d\x7d" ∧
      (step.prepare first.toContext).map (·.run) = .ok (some "hello Linux") := by
  intro first declared step
  have parts : segments "hello $\x7b\x7b runner.os \x7d\x7d".toList =
      "hello ".toList.map .char ++ [.expression " runner.os ".toList] := by cbv
  have filled : interpolateDict step.env first.toContext =
      .ok (Dict.ofList [("GREETING", "hello Linux")]) := by cbv
  have script env (evaluated : interpolateDict step.env first.toContext = .ok env) :
      interpolate "$\x7b\x7b env.GREETING \x7d\x7d" (first.toContext.withEnv env) =
        .ok "hello Linux" := by
    cases filled.symm.trans evaluated
    exact isVariable_greeting.interpolate_withEnv first rfl
  refine ⟨planJob_greets _, shows_greeting parts (by simp), rfl, ?_⟩
  rw [PlannedStep.prepare_eq rfl script, filled]
  rfl

end Plan

end JobMatrix
