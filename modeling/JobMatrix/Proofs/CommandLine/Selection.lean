import JobMatrix.Proofs.Pattern.Selecting
import JobMatrix.Proofs.Success
import JobMatrix.CommandLine.Setting

/-! # Selecting jobs in a row

What a setting selects of pipelines behind others is what it selects of them by
themselves, as long as no pattern is global or sticky.  A global pattern may miss
a pipeline that it matches, since its last match may end behind the place; a
sticky one may also select a pipeline that it does not match from the start.
-/

namespace JobMatrix.CommandLine

open JobMatrix.Console (Line)

namespace Setting

/-- What a setting with texts of job patterns selects of pipelines, and of
    others behind them. -/
structure SelectsInARow (s : Setting) (texts : List String)
    (ps qs first behind : List Pipeline) (warnings : List Line) : Prop where
  before : s.selectJobs ps = .ok (first, warnings)
  both : s.selectJobs (ps ++ qs) = .ok (first ++ behind, warnings)
  inOrder : behind.Sublist qs
  /-- Without global and sticky patterns the pipelines before make no difference. -/
  apart : (∀ text ∈ texts, 'g' ∉ Pattern.letters text ∧ 'y' ∉ Pattern.letters text) →
    s.selectJobs qs = .ok (behind, warnings)
  /-- Without sticky patterns a pipeline behind others is selected only if it is by itself. -/
  sound : (∀ text ∈ texts, 'y' ∉ Pattern.letters text) →
    ∀ q ∈ behind, s.selectJobs [q] = .ok ([q], warnings)
  /-- A pattern that is neither global nor sticky misses no pipeline. -/
  complete : ∀ p ∈ (Pattern.JobPattern.readAll texts).1, p.flags.remembers = false →
    ∀ q ∈ qs, p.accepts q.id = true → q ∈ behind
  /-- Behind a pipeline that is not selected every pattern starts again. -/
  afresh : ∀ before last, ps = before ++ [last] → s.selectJobs before = .ok (first, warnings) →
    s.selectJobs qs = .ok (behind, warnings)

theorem selectJobs_of_patternTexts {s : Setting} {texts : List String}
    (given : s.patternTexts = .ok texts) (pipelines : List Pipeline) :
    s.selectJobs pipelines =
      .ok (Pattern.select (Pattern.JobPattern.readAll texts).1 pipelines,
        (Pattern.JobPattern.readAll texts).2) := by
  rw [selectJobs, given]
  rfl

theorem selectsInARow_of_patternTexts {s : Setting} {texts : List String}
    (given : s.patternTexts = .ok texts) (ps qs : List Pipeline) :
    s.SelectsInARow texts ps qs
      (Pattern.select (Pattern.JobPattern.readAll texts).1 ps)
      (Pattern.selectBehind (Pattern.JobPattern.readAll texts).1 ps qs)
      (Pattern.JobPattern.readAll texts).2 where
  before := selectJobs_of_patternTexts given ps
  both := by rw [selectJobs_of_patternTexts given, Pattern.select_append]
  inOrder := Pattern.selectBehind_sublist _ ps qs
  apart := by
    intro plain
    rw [selectJobs_of_patternTexts given, Pattern.selectBehind_of_forgets]
    exact fun p => Pattern.JobPattern.remembers_eq_false plain
  sound := by
    intro loose q member
    have kept := Pattern.keeps_of_mem_selectBehind
      (fun p => Pattern.JobPattern.sticky_eq_false loose) member
    rw [selectJobs_of_patternTexts given, Pattern.select_singleton, if_pos kept]
  complete := fun p member forgets q listed accepts =>
    Pattern.mem_selectBehind_of_accepts ps listed member forgets accepts
  afresh := by
    rintro before last rfl missed
    rw [selectJobs_of_patternTexts given, Except.ok.injEq, Prod.mk.injEq] at missed
    rw [selectJobs_of_patternTexts given, Pattern.selectBehind_of_missed missed.1.symm]

/-- **Selecting jobs in a row.**  A setting that lists something other than texts
    fails for all pipelines alike.  Any other selects of pipelines with others
    behind them what it selects of them by themselves, and then some of the
    others.  If no text gives its pattern the flags of a global or a sticky one,
    these are what it selects of the others by themselves, and a pipeline is
    selected by its own id. -/
theorem selectJobs_append (s : Setting) :
    (∀ e, s.patternTexts = .error e → ∀ pipelines, s.selectJobs pipelines = .error e) ∧
    (∀ texts, s.patternTexts = .ok texts →
      (∀ ps qs, ∃ first behind warnings, s.SelectsInARow texts ps qs first behind warnings) ∧
      ((∀ text ∈ texts, 'g' ∉ Pattern.letters text ∧ 'y' ∉ Pattern.letters text) →
        ∃ warnings, ∀ pipelines, s.selectJobs pipelines = .ok (pipelines.filter fun q =>
          Pattern.keeps (Pattern.JobPattern.readAll texts).1 q.id, warnings))) := by
  refine ⟨fun e failed pipelines => by rw [selectJobs, failed]; rfl, fun texts given => ⟨?_, ?_⟩⟩
  · exact fun ps qs => ⟨_, _, _, selectsInARow_of_patternTexts given ps qs⟩
  · intro plain
    refine ⟨(Pattern.JobPattern.readAll texts).2, fun pipelines => ?_⟩
    rw [selectJobs_of_patternTexts given, Pattern.select_of_forgets]
    exact fun p => Pattern.JobPattern.remembers_eq_false plain

def jobOf (id : String) : Pipeline :=
  ⟨id, id, "ubuntu-latest", .empty, ⟨[], [], [], true, none⟩, [], none⟩

theorem selectJobs_append_build : ∃ first behind warnings,
    (one (.text "/build/,lint")).selectJobs [jobOf "build", jobOf "docs"] = .ok (first, warnings) ∧
    (one (.text "/build/,lint")).selectJobs [jobOf "lint", jobOf "rebuild"] =
      .ok (behind, warnings) ∧
    (one (.text "/build/,lint")).selectJobs
      [jobOf "build", jobOf "docs", jobOf "lint", jobOf "rebuild"] =
      .ok (first ++ behind, warnings) := by
  have given : (one (.text "/build/,lint")).patternTexts = .ok ["/build/", "lint"] :=
    eq_ok_of_toOption (by decide +kernel)
  obtain ⟨first, behind, warnings, selects⟩ :=
    ((selectJobs_append (one (.text "/build/,lint"))).2 ["/build/", "lint"] given).1
      [jobOf "build", jobOf "docs"] [jobOf "lint", jobOf "rebuild"]
  exact ⟨first, behind, warnings, selects.before, selects.apart (by decide +kernel), selects.both⟩

/-- A global pattern misses a job that it matches, and a sticky one selects a job
    that it does not match. -/
theorem selectJobs_append_global :
    (one (.text "/build/g")).selectJobs [jobOf "build-linux"] = .ok ([jobOf "build-linux"], []) ∧
    (one (.text "/build/g")).selectJobs [jobOf "build-macos"] = .ok ([jobOf "build-macos"], []) ∧
    (one (.text "/build/g")).selectJobs [jobOf "build-linux", jobOf "build-macos"] =
      .ok ([jobOf "build-linux"], []) ∧
    (one (.text "/build/y")).selectJobs [jobOf "unit-build"] = .ok ([], []) ∧
    (one (.text "/build/y")).selectJobs [jobOf "build", jobOf "unit-build"] =
      .ok ([jobOf "build", jobOf "unit-build"], []) := by
  refine ⟨?_, ?_, ?_, ?_, ?_⟩
  all_goals exact eq_ok_of_toOption (by decide +kernel)

end Setting

end JobMatrix.CommandLine
