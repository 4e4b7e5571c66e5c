import JobMatrix.Pattern.Selection

/-! # What patterns select

A pattern that is neither global nor sticky forgets its tests, so that a
pipeline is selected or not by its own id.  One that is global or sticky goes
on from the end of its last match, and what it selects depends on the pipelines
before.
-/

namespace JobMatrix.Pattern

/-! ## Flags by their letters -/

namespace Flags

theorem add?_eq_some {f g : Flags} {c : Char} (added : f.add? c = some g) :
    (g.isGlobal = true ↔ f.isGlobal = true ∨ c = 'g') ∧
      (g.sticky = true ↔ f.sticky = true ∨ c = 'y') := by
  unfold add? at added
  split at added
  case h_9 => cases added
  all_goals
    split at added
    · cases added
    · cases added
      simp

theorem foldlM_add?_eq_some {f g : Flags} {letters : List Char}
    (read : letters.foldlM add? f = some g) :
    (g.isGlobal = true ↔ f.isGlobal = true ∨ 'g' ∈ letters) ∧
      (g.sticky = true ↔ f.sticky = true ∨ 'y' ∈ letters) := by
  induction letters generalizing f with
  | nil =>
      cases read
      simp
  | cons c rest ih =>
      rw [List.foldlM_cons] at read
      obtain ⟨next, added, read⟩ := Option.bind_eq_some_iff.mp read
      obtain ⟨isGlobal, sticky⟩ := add?_eq_some added
      obtain ⟨isGlobal', sticky'⟩ := ih read
      rw [isGlobal', isGlobal, sticky', sticky, List.mem_cons, List.mem_cons, or_assoc, or_assoc,
        @eq_comm _ c 'g', @eq_comm _ c 'y']
      exact ⟨Iff.rfl, Iff.rfl⟩

theorem ofChars?_eq_some {letters : List Char} {f : Flags} (read : ofChars? letters = some f) :
    (f.isGlobal = true ↔ 'g' ∈ letters) ∧ (f.sticky = true ↔ 'y' ∈ letters) := by
  obtain ⟨isGlobal, sticky⟩ := foldlM_add?_eq_some read
  simpa [none] using And.intro isGlobal sticky

end Flags

def letters (text : String) : List Char :=
  (reading (Text.trimChars text.toList)).2

theorem JobPattern.exists_of_mem_readAll {texts : List String} {p : JobPattern}
    (member : p ∈ (readAll texts).1) :
    ∃ text ∈ texts, Flags.ofChars? (letters text) = some p.flags := by
  rw [readAll_eq] at member
  obtain ⟨text, listed, read⟩ := List.mem_filterMap.mp member
  obtain ⟨flags, given, read⟩ := Option.bind_eq_some_iff.mp read
  obtain ⟨regex, -, read⟩ := Option.bind_eq_some_iff.mp read
  cases read
  exact ⟨text, (List.mem_filter.mp listed).1, given⟩

namespace JobPattern

theorem sticky_eq_false {texts : List String} (loose : ∀ text ∈ texts, 'y' ∉ letters text)
    {p : JobPattern} (member : p ∈ (readAll texts).1) : p.flags.sticky = false := by
  obtain ⟨text, listed, read⟩ := exists_of_mem_readAll member
  have sticky := (Flags.ofChars?_eq_some read).2
  exact Bool.eq_false_iff.mpr fun bound => loose text listed (sticky.mp bound)

theorem remembers_eq_false {texts : List String}
    (plain : ∀ text ∈ texts, 'g' ∉ letters text ∧ 'y' ∉ letters text) {p : JobPattern}
    (member : p ∈ (readAll texts).1) : p.flags.remembers = false := by
  obtain ⟨text, listed, read⟩ := exists_of_mem_readAll member
  have isGlobal := (Flags.ofChars?_eq_some read).1
  rw [Flags.remembers, Bool.or_eq_false_iff]
  refine ⟨Bool.eq_false_iff.mpr fun all => (plain text listed).1 (isGlobal.mp all), ?_⟩
  exact sticky_eq_false (fun text listed => (plain text listed).2) member

end JobPattern

/-! ## A search from the start -/

/-- A search that may start later is no better off. -/
theorem Regex.search?_isSome_of_later {f : Flags} (loose : f.sticky = false) (r : Regex)
    (skipped : List Nat) {passed ahead : List Nat}
    (found : (r.search? f (skipped.reverse ++ passed) ahead).isSome = true) :
    (r.search? f passed (skipped ++ ahead)).isSome = true := by
  induction skipped generalizing passed with
  | nil => exact found
  | cons n skipped ih =>
      rw [List.reverse_cons, List.append_assoc] at found
      rw [List.cons_append, search?]
      split
      · rfl
      · rw [loose, if_neg Bool.false_ne_true]
        exact ih found

namespace JobPattern

/-- What is passed and what is ahead make up the whole text. -/
theorem go_spec (passed : List Nat) (left : Nat) (symbols : List (Nat × Nat)) :
    ∃ skipped, (startingAt.go passed left symbols).1 = skipped.reverse ++ passed ∧
      symbols.map Prod.fst = skipped ++ (startingAt.go passed left symbols).2 := by
  induction symbols generalizing passed left with
  | nil => exact ⟨[], rfl, rfl⟩
  | cons symbol rest ih =>
      obtain ⟨code, size⟩ := symbol
      unfold startingAt.go
      split
      · obtain ⟨skipped, passes, stays⟩ := ih (code :: passed) (left - size)
        refine ⟨code :: skipped, ?_, by rw [List.map_cons, stays]; rfl⟩
        rw [passes, List.reverse_cons, List.append_assoc]
        rfl
      · exact ⟨[], rfl, rfl⟩

theorem go_zero {symbols : List (Nat × Nat)} (positive : ∀ symbol ∈ symbols, 0 < symbol.2) :
    startingAt.go [] 0 symbols = ([], symbols.map Prod.fst) := by
  cases symbols with
  | nil => rfl
  | cons symbol rest =>
      have some := positive symbol List.mem_cons_self
      rw [startingAt.go, if_neg (by omega)]
      rfl

theorem startingAt_spec (flags : Flags) (start : Nat) (subject : String) :
    ∃ skipped, (startingAt flags start subject).1 = skipped.reverse ∧
      startingAt flags 0 subject = ([], skipped ++ (startingAt flags start subject).2) := by
  unfold startingAt
  obtain ⟨skipped, passes, stays⟩ := go_spec [] start
    (if flags.wholeChars then subject.toList.map fun c => (c.toNat, Text.charSize c)
      else (Text.units subject.toList).map (·, 1))
  refine ⟨skipped, by rw [passes, List.append_nil], ?_⟩
  rw [go_zero, stays]
  intro symbol member
  split at member
  · obtain ⟨c, -, rfl⟩ := List.mem_map.mp member
    exact Text.charSize_pos c
  · obtain ⟨unit, -, rfl⟩ := List.mem_map.mp member
    exact Nat.one_pos

/-- Whether a pattern that has not been tested yet matches an id. -/
def accepts (p : JobPattern) (id : String) : Bool :=
  (p.test 0 id).1

theorem test_of_forgets {p : JobPattern} (forgets : p.flags.remembers = false) (start : Nat)
    (id : String) : p.test start id = p.test 0 id := by
  simp [test, forgets]

theorem fst_test_of_remembers {p : JobPattern} (remembers : p.flags.remembers = true) {start : Nat}
    {id : String} (fits : ¬ Text.size id.toList < start) :
    (p.test start id).1 = (p.regex.search? p.flags (startingAt p.flags start id).1
      (startingAt p.flags start id).2).isSome := by
  unfold test
  rw [if_pos remembers]
  dsimp only
  rw [if_neg fits]
  cases p.regex.search? p.flags (startingAt p.flags start id).1 (startingAt p.flags start id).2 with
  | none => rfl
  | some spot => rfl

theorem snd_test_of_missed {p : JobPattern} {start : Nat} {id : String}
    (missed : (p.test start id).1 = false) : (p.test start id).2 = 0 := by
  unfold test at missed ⊢
  dsimp only at missed ⊢
  generalize (if p.flags.remembers = true then start else 0) = unit at missed ⊢
  by_cases short : Text.size id.toList < unit
  · rw [if_pos short]
  · rw [if_neg short] at missed ⊢
    split at missed
    · cases missed
    · rfl

/-- What a pattern matches from its last match on, it matches from the start,
    unless it is bound to where it starts. -/
theorem accepts_of_test {p : JobPattern} (loose : p.flags.sticky = false) {start : Nat}
    {id : String} (matched : (p.test start id).1 = true) : p.accepts id = true := by
  cases remembers : p.flags.remembers with
  | false =>
      rw [accepts, ← test_of_forgets remembers start]
      exact matched
  | true =>
      by_cases fits : Text.size id.toList < start
      · rw [test, if_pos remembers, if_pos fits] at matched
        cases matched
      · obtain ⟨skipped, passes, whole⟩ := startingAt_spec p.flags start id
        rw [fst_test_of_remembers remembers fits, passes] at matched
        rw [accepts, fst_test_of_remembers remembers (Nat.not_lt_zero _), whole]
        exact p.regex.search?_isSome_of_later loose skipped (by rwa [List.append_nil])

end JobPattern

/-! ## Tests one after another -/

namespace Progress

theorem patterns_test (patterns : Progress) (id : String) :
    (patterns.test id).2.map Prod.fst = patterns.map Prod.fst := by
  induction patterns with
  | nil => rfl
  | cons first rest ih =>
      unfold test
      dsimp only
      split
      · rfl
      · simp [ih]

theorem exists_of_test {patterns : Progress} {id : String}
    (matched : (patterns.test id).1 = true) :
    ∃ pattern ∈ patterns.map Prod.fst, ∃ start, (pattern.test start id).1 = true := by
  induction patterns with
  | nil => cases matched
  | cons first rest ih =>
      obtain ⟨pattern, start⟩ := first
      unfold test at matched
      dsimp only at matched
      split at matched
      · next found => exact ⟨pattern, List.mem_cons_self, start, found⟩
      · obtain ⟨other, member, found⟩ := ih matched
        exact ⟨other, List.mem_cons_of_mem pattern member, found⟩

theorem exists_of_mem_select {patterns : Progress} {pipelines : List Pipeline}
    {p : Pipeline} (member : p ∈ patterns.select pipelines) :
    ∃ pattern ∈ patterns.map Prod.fst, ∃ start, (pattern.test start p.id).1 = true := by
  induction pipelines generalizing patterns with
  | nil => cases member
  | cons first rest ih =>
      unfold select at member
      dsimp only at member
      split at member
      · next found =>
          rcases List.mem_cons.mp member with rfl | member
          · exact exists_of_test found
          · exact patterns_test patterns first.id ▸ ih member
      · exact patterns_test patterns first.id ▸ ih member

/-- A pattern that forgets its tests is no worse off behind others. -/
theorem test_of_accepts {patterns : Progress} {p : JobPattern} {id : String}
    (member : p ∈ patterns.map Prod.fst) (forgets : p.flags.remembers = false)
    (accepts : p.accepts id = true) : (patterns.test id).1 = true := by
  induction patterns with
  | nil => cases member
  | cons first rest ih =>
      unfold test
      dsimp only
      split
      · rfl
      · next missed =>
          rcases List.mem_cons.mp member with rfl | member
          · rw [JobPattern.test_of_forgets forgets] at missed
            exact absurd accepts missed
          · exact ih member

/-- Patterns that a test finds no further on than untested ones. -/
theorem test_of_same {patterns : Progress} {id : String}
    (same : ∀ entry ∈ patterns, (entry.1.test entry.2 id).1 = entry.1.accepts id) :
    (patterns.test id).1 = (patterns.map Prod.fst).any (·.accepts id) := by
  induction patterns with
  | nil => rfl
  | cons first rest ih =>
      rw [List.map_cons, List.any_cons, ← same first List.mem_cons_self,
        ← ih fun entry member => same entry (List.mem_cons_of_mem first member), test]
      dsimp only
      cases (first.1.test first.2 id).1 <;> rfl

theorem test_of_forgets {patterns : Progress} (id : String)
    (forgets : ∀ p ∈ patterns.map Prod.fst, p.flags.remembers = false) :
    (patterns.test id).1 = (patterns.map Prod.fst).any (·.accepts id) := by
  refine test_of_same fun entry member => ?_
  rw [JobPattern.test_of_forgets (forgets entry.1 (List.mem_map_of_mem member))]
  rfl

theorem patterns_start (patterns : List JobPattern) :
    (start patterns).map Prod.fst = patterns := by
  rw [start, List.map_map]
  exact List.map_id patterns

theorem test_start (patterns : List JobPattern) (id : String) :
    ((start patterns).test id).1 = patterns.any (·.accepts id) := by
  rw [test_of_same, patterns_start]
  intro entry member
  obtain ⟨p, -, rfl⟩ := List.mem_map.mp member
  rfl

/-- A test that no pattern passes leaves nothing behind. -/
theorem snd_test_of_missed {patterns : Progress} {id : String}
    (missed : (patterns.test id).1 = false) :
    (patterns.test id).2 = start (patterns.map Prod.fst) := by
  induction patterns with
  | nil => rfl
  | cons first rest ih =>
      unfold test at missed ⊢
      dsimp only at missed ⊢
      split at missed
      · cases missed
      · next unmatched =>
          rw [if_neg unmatched, ih missed, JobPattern.snd_test_of_missed (by simpa using unmatched)]
          rfl

def after (patterns : Progress) : List Pipeline → Progress
  | [] => patterns
  | p :: rest => after (patterns.test p.id).2 rest

theorem after_append (patterns : Progress) (before behind : List Pipeline) :
    patterns.after (before ++ behind) = (patterns.after before).after behind := by
  induction before generalizing patterns with
  | nil => rfl
  | cons p rest ih => exact ih _

theorem patterns_after (patterns : Progress) (before : List Pipeline) :
    (patterns.after before).map Prod.fst = patterns.map Prod.fst := by
  induction before generalizing patterns with
  | nil => rfl
  | cons p rest ih => rw [after, ih, patterns_test]

/-- The pipelines behind others are selected by what the tests have left. -/
theorem select_append (patterns : Progress) (before behind : List Pipeline) :
    patterns.select (before ++ behind) =
      patterns.select before ++ (patterns.after before).select behind := by
  induction before generalizing patterns with
  | nil => rfl
  | cons p rest ih =>
      rw [List.cons_append, select, select, after]
      dsimp only
      split
      · rw [ih, List.cons_append]
      · exact ih _

theorem select_sublist (patterns : Progress) (pipelines : List Pipeline) :
    (patterns.select pipelines).Sublist pipelines := by
  induction pipelines generalizing patterns with
  | nil => exact List.Sublist.slnil
  | cons q rest ih =>
      rw [select]
      dsimp only
      split
      · exact (ih _).cons_cons q
      · exact (ih _).cons q

theorem select_of_forgets {patterns : Progress} (pipelines : List Pipeline)
    (forgets : ∀ p ∈ patterns.map Prod.fst, p.flags.remembers = false) :
    patterns.select pipelines =
      pipelines.filter fun q => (patterns.map Prod.fst).any (·.accepts q.id) := by
  induction pipelines generalizing patterns with
  | nil => rfl
  | cons q rest ih =>
      have others := @ih (patterns.test q.id).2 (patterns_test patterns q.id ▸ forgets)
      rw [patterns_test] at others
      rw [select]
      dsimp only
      rw [test_of_forgets q.id forgets, List.filter_cons, others]

theorem mem_select_of_accepts {patterns : Progress} {pipelines : List Pipeline} {q : Pipeline}
    (listed : q ∈ pipelines) {p : JobPattern} (member : p ∈ patterns.map Prod.fst)
    (forgets : p.flags.remembers = false) (accepts : p.accepts q.id = true) :
    q ∈ patterns.select pipelines := by
  induction pipelines generalizing patterns with
  | nil => cases listed
  | cons first rest ih =>
      rw [select]
      dsimp only
      rcases List.mem_cons.mp listed with rfl | listed
      · rw [if_pos (test_of_accepts member forgets accepts)]
        exact List.mem_cons_self
      · have behind := ih listed (patterns_test patterns first.id ▸ member)
        split
        · exact List.mem_cons_of_mem first behind
        · exact behind

end Progress

/-- Whether patterns that have not been tested yet select a pipeline with an id. -/
def keeps (patterns : List JobPattern) (id : String) : Bool :=
  patterns.isEmpty || patterns.any (·.accepts id)

theorem select_singleton (patterns : List JobPattern) (q : Pipeline) :
    select patterns [q] = if keeps patterns q.id then [q] else [] := by
  unfold select keeps
  cases patterns.isEmpty with
  | true => rfl
  | false =>
      rw [if_neg Bool.false_ne_true, Progress.select, Bool.false_or]
      dsimp only
      rw [Progress.test_start]
      rfl

theorem select_of_forgets {patterns : List JobPattern} (pipelines : List Pipeline)
    (forgets : ∀ p ∈ patterns, p.flags.remembers = false) :
    select patterns pipelines = pipelines.filter fun q => keeps patterns q.id := by
  unfold select keeps
  cases patterns.isEmpty with
  | true => exact (List.filter_eq_self.mpr fun _ _ => rfl).symm
  | false =>
      rw [if_neg Bool.false_ne_true, Progress.select_of_forgets, Progress.patterns_start]
      · rfl
      · rwa [Progress.patterns_start]

theorem select_sublist (patterns : List JobPattern) (pipelines : List Pipeline) :
    (select patterns pipelines).Sublist pipelines := by
  unfold select
  split
  · exact List.Sublist.refl pipelines
  · exact Progress.select_sublist _ pipelines

theorem exists_of_mem_select {patterns : List JobPattern} {pipelines : List Pipeline}
    {p : Pipeline} (some : patterns ≠ []) (member : p ∈ select patterns pipelines) :
    ∃ pattern ∈ patterns, ∃ start, (pattern.test start p.id).1 = true := by
  rw [select, if_neg (by simpa using some)] at member
  have found := Progress.exists_of_mem_select member
  rwa [Progress.patterns_start] at found

/-! ## Pipelines behind others -/

def selectBehind (patterns : List JobPattern) (before pipelines : List Pipeline) : List Pipeline :=
  if patterns.isEmpty then pipelines
  else ((Progress.start patterns).after before).select pipelines

theorem select_append (patterns : List JobPattern) (before behind : List Pipeline) :
    select patterns (before ++ behind) =
      select patterns before ++ selectBehind patterns before behind := by
  unfold select selectBehind
  split
  · rfl
  · exact Progress.select_append _ before behind

theorem patterns_after_start (patterns : List JobPattern) (before : List Pipeline) :
    ((Progress.start patterns).after before).map Prod.fst = patterns := by
  rw [Progress.patterns_after, Progress.patterns_start]

theorem selectBehind_sublist (patterns : List JobPattern) (before pipelines : List Pipeline) :
    (selectBehind patterns before pipelines).Sublist pipelines := by
  unfold selectBehind
  split
  · exact List.Sublist.refl pipelines
  · exact Progress.select_sublist _ pipelines

theorem selectBehind_of_forgets {patterns : List JobPattern} (before pipelines : List Pipeline)
    (forgets : ∀ p ∈ patterns, p.flags.remembers = false) :
    selectBehind patterns before pipelines = select patterns pipelines := by
  have apart := select_append patterns before pipelines
  rw [select_of_forgets _ forgets, select_of_forgets _ forgets, List.filter_append] at apart
  rw [select_of_forgets _ forgets]
  exact (List.append_cancel_left apart).symm

theorem keeps_of_mem_selectBehind {patterns : List JobPattern} {before pipelines : List Pipeline}
    {q : Pipeline} (loose : ∀ p ∈ patterns, p.flags.sticky = false)
    (member : q ∈ selectBehind patterns before pipelines) : keeps patterns q.id = true := by
  unfold selectBehind at member
  unfold keeps
  split at member
  · next none => rw [none, Bool.true_or]
  · obtain ⟨p, listed, start, matched⟩ := Progress.exists_of_mem_select member
    rw [patterns_after_start] at listed
    rw [Bool.or_eq_true, List.any_eq_true]
    exact .inr ⟨p, listed, JobPattern.accepts_of_test (loose p listed) matched⟩

theorem mem_selectBehind_of_accepts {patterns : List JobPattern} (before : List Pipeline)
    {pipelines : List Pipeline} {q : Pipeline} (listed : q ∈ pipelines) {p : JobPattern}
    (member : p ∈ patterns) (forgets : p.flags.remembers = false)
    (accepts : p.accepts q.id = true) : q ∈ selectBehind patterns before pipelines := by
  unfold selectBehind
  split
  · exact listed
  · exact Progress.mem_select_of_accepts listed (by rwa [patterns_after_start]) forgets accepts

theorem selectBehind_of_missed {patterns : List JobPattern} {before : List Pipeline}
    {last : Pipeline} (missed : select patterns (before ++ [last]) = select patterns before)
    (pipelines : List Pipeline) :
    selectBehind patterns (before ++ [last]) pipelines = select patterns pipelines := by
  rw [select_append, List.append_right_eq_self] at missed
  unfold selectBehind at missed ⊢
  unfold select
  split
  · rfl
  · next some =>
      rw [if_neg some, Progress.select] at missed
      dsimp only at missed
      have unmatched : (((Progress.start patterns).after before).test last.id).1 = false := by
        split at missed
        · cases missed
        · next unmatched => exact Bool.not_eq_true _ ▸ unmatched
      rw [Progress.after_append, Progress.after, Progress.after,
        Progress.snd_test_of_missed unmatched, patterns_after_start]

end JobMatrix.Pattern
