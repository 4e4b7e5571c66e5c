import JobMatrix.Proofs.CommandLine.Selection

/-! # Valid and invalid patterns of a filter

A filter selects by its valid patterns alone and warns about the others.  One
valid pattern is enough for every selected pipeline to be matched.  If none is
left the filter lets every pipeline through, whether it was given invalid
patterns or none at all.
-/

namespace JobMatrix

namespace CommandLine.Setting

open JobMatrix.Console (Line)
open JobMatrix.Pattern (JobPattern)

theorem nonblank_of_patternTexts {s : Setting} {texts : List String}
    (given : s.patternTexts = .ok texts) : Text.nonblank texts = texts := by
  obtain ⟨entries, -, rfl⟩ := exists_of_map_eq_ok given
  apply List.filter_eq_self.mpr
  intro text member
  obtain ⟨part, filled⟩ := List.mem_filter.mp member
  obtain ⟨entry, -, rfl⟩ := List.mem_map.mp part
  rw [Text.trim_trim]
  exact filled

/-- What a filter selects of pipelines, with its warnings. -/
structure Filters (texts : List String) (all selected : List Pipeline) (warnings : List Line) :
    Prop where
  warned : warnings =
    (texts.filter fun text => (JobPattern.ofText? text).isNone).map JobPattern.warning
  inOrder : selected.Sublist all
  /-- With a valid pattern every selected pipeline is matched by one: from the
      start of its id, or, if the pattern is sticky, from where its test starts. -/
  matched : (∃ text ∈ texts, (JobPattern.ofText? text).isSome = true) → ∀ q ∈ selected,
    ∃ text ∈ texts, ∃ p, JobPattern.ofText? text = some p ∧
      (∃ start, (p.test start q.id).1 = true) ∧ (p.flags.sticky = false → p.accepts q.id = true)
  /-- A valid pattern that is neither global nor sticky misses no pipeline. -/
  complete : ∀ text ∈ texts, ∀ p, JobPattern.ofText? text = some p → p.flags.remembers = false →
    ∀ q ∈ all, p.accepts q.id = true → q ∈ selected
  /-- Without a valid pattern nothing is filtered. -/
  unfiltered : (∀ text ∈ texts, JobPattern.ofText? text = none) → selected = all

theorem filters_of_valid (texts : List String) (all : List Pipeline) :
    Filters texts all (Pattern.select (texts.filterMap JobPattern.ofText?) all)
      ((texts.filter fun text => (JobPattern.ofText? text).isNone).map JobPattern.warning) where
  warned := rfl
  inOrder := Pattern.select_sublist _ all
  matched := by
    rintro ⟨text, listed, valid⟩ q member
    have some : texts.filterMap JobPattern.ofText? ≠ [] := by
      intro none
      rw [List.filterMap_eq_nil_iff.mp none text listed] at valid
      cases valid
    obtain ⟨p, valid, start, matched⟩ := Pattern.exists_of_mem_select some member
    obtain ⟨text, listed, read⟩ := List.mem_filterMap.mp valid
    exact ⟨text, listed, p, read, ⟨start, matched⟩,
      fun loose => JobPattern.accepts_of_test loose matched⟩
  complete := by
    intro text listed p read forgets q member accepts
    have valid : p ∈ texts.filterMap JobPattern.ofText? :=
      List.mem_filterMap.mpr ⟨text, listed, read⟩
    -- all pipelines are those behind none
    exact Pattern.mem_selectBehind_of_accepts [] member valid forgets accepts
  unfiltered := by
    intro invalid
    rw [List.filterMap_eq_nil_iff.mpr invalid]
    rfl

/-- **A filter with a valid pattern filters.**  A setting that lists texts of
    patterns selects pipelines without an error, in their order and with one
    warning for each invalid text.  Once one text is valid, each pipeline that is
    selected is matched by a valid one; all pipelines are let through without a
    look at their ids only if no text is valid. -/
theorem selectJobs_filters {s : Setting} {texts : List String}
    (given : s.patternTexts = .ok texts) (all : List Pipeline) :
    ∃ selected warnings, s.selectJobs all = .ok (selected, warnings) ∧
      Filters texts all selected warnings := by
  refine ⟨_, _, ?_, filters_of_valid texts all⟩
  rw [selectJobs_of_patternTexts given, JobPattern.readAll_eq, nonblank_of_patternTexts given]

theorem selectJobs_filters_mixed :
    (many [.text "/[/, ", .text "LINT"]).selectJobs [jobOf "build", jobOf "lint"] =
      .ok ([jobOf "lint"], [JobPattern.warning "/[/"]) ∧
    Filters ["/[/", "LINT"] [jobOf "build", jobOf "lint"] [jobOf "lint"]
      [JobPattern.warning "/[/"] := by
  have given : (many [.text "/[/, ", .text "LINT"]).patternTexts = .ok ["/[/", "LINT"] :=
    eq_ok_of_toOption (by decide +kernel)
  have chosen : (many [.text "/[/, ", .text "LINT"]).selectJobs [jobOf "build", jobOf "lint"] =
      .ok ([jobOf "lint"], [JobPattern.warning "/[/"]) := eq_ok_of_toOption (by decide +kernel)
  obtain ⟨selected, warnings, selects, filters⟩ :=
    selectJobs_filters given [jobOf "build", jobOf "lint"]
  rw [chosen] at selects
  cases selects
  exact ⟨chosen, filters⟩

/-- A filter that was given nothing but an invalid pattern selects pipelines that
    no valid pattern matches. -/
theorem selectJobs_invalid :
    (one (.text "/[/")).patternTexts = .ok ["/[/"] ∧ JobPattern.ofText? "/[/" = none ∧
    (one (.text "/[/")).selectJobs [jobOf "build", jobOf "docs"] =
      .ok ([jobOf "build", jobOf "docs"], [JobPattern.warning "/[/"]) := by
  refine ⟨eq_ok_of_toOption (by decide +kernel), by decide +kernel, ?_⟩
  exact eq_ok_of_toOption (by decide +kernel)

end CommandLine.Setting

end JobMatrix
