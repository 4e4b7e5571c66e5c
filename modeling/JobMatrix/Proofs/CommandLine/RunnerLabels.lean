import JobMatrix.CommandLine.Setting
import JobMatrix.Proofs.Data.Insertion
import JobMatrix.Proofs.Success
import JobMatrix.Proofs.Text.Numerals

/-! # Labels of runners that are given several times

The mappings of a setting are collected under their labels as spelled, and the
spellings of one label become one key only when the platform is looked up.  So
the spelling that appeared last counts, with the last platform given to it.
That is the last platform given to the label, unless an older spelling is given
again behind a newer one.

A mapping whose label is spelled as the key of the prototype is not collected.
Where no other spelling of that label is given, its lookup finds no platform but
what every table inherits.
-/

namespace JobMatrix

namespace RunnerTable

variable {ms : List (String × Platform)} {normal : String}

def collected (ms : List (String × Platform)) : List (String × Platform) :=
  ms.filter fun m => m.1 ≠ Dict.prototypeKey

theorem assignAll_eq_ofList (ms : List (String × Platform)) :
    Dict.empty.assignAll ms = Dict.ofList (collected ms) :=
  Dict.assignAll_eq_insertAll rfl ms

/-- Of the spellings of a label, in the order in which each is given first, the
    last one. -/
def latestSpelling? (ms : List (String × Platform)) (normal : String) : Option String :=
  ((ms.map Prod.fst).eraseDups.filter fun spelling => Text.toLower spelling = normal).getLast?

theorem exists_latestSpelling {m : String × Platform} (given : m ∈ ms)
    (alike : Text.toLower m.1 = normal) :
    ∃ spelling, latestSpelling? ms normal = some spelling := by
  refine Option.isSome_iff_exists.mp (List.getLast?_isSome.mpr ?_)
  refine List.ne_nil_of_mem (a := m.1) (List.mem_filter.mpr ⟨?_, by simp [alike]⟩)
  exact List.mem_eraseDups.mpr (List.mem_map_of_mem given)

theorem latestSpelling_eq_none (unlike : ∀ m ∈ ms, Text.toLower m.1 ≠ normal) :
    latestSpelling? ms normal = none := by
  rw [latestSpelling?, List.getLast?_eq_none_iff, List.filter_eq_nil_iff]
  intro spelling member alike
  obtain ⟨m, given, rfl⟩ := List.mem_map.mp (List.mem_eraseDups.mp member)
  exact unlike m given (of_decide_eq_true alike)

theorem mem_of_latestSpelling {spelling : String}
    (latest : latestSpelling? ms normal = some spelling) : spelling ∈ ms.map Prod.fst :=
  List.mem_eraseDups.mp (List.mem_filter.mp (List.mem_of_getLast? latest)).1

theorem latestSpelling_append {others : List (String × Platform)}
    (unlike : ∀ m ∈ others, Text.toLower m.1 ≠ normal) :
    latestSpelling? (ms ++ others) normal = latestSpelling? ms normal := by
  have none : ∀ spelling ∈ ((others.map Prod.fst).removeAll (ms.map Prod.fst)).eraseDups,
      ¬decide (Text.toLower spelling = normal) = true := by
    intro spelling member alike
    obtain ⟨listed, -⟩ := List.mem_filter.mp (List.mem_eraseDups.mp member)
    obtain ⟨m, given, rfl⟩ := List.mem_map.mp listed
    exact unlike m given (of_decide_eq_true alike)
  rw [latestSpelling?, List.map_append, List.eraseDups_append, List.filter_append,
    List.filter_eq_nil_iff.mpr none, List.append_nil]
  rfl

theorem latestSpelling_concat {m : String × Platform} (alike : Text.toLower m.1 = normal)
    (current : m.1 ∈ ms.map Prod.fst → latestSpelling? ms normal = some m.1) :
    latestSpelling? (ms ++ [m]) normal = some m.1 := by
  rw [latestSpelling?, List.map_append, List.map_singleton, Entries.eraseDups_concat]
  split
  · next known => exact current known
  · have passes : [m.1].filter (fun spelling => Text.toLower spelling = normal) = [m.1] := by
      simp [alike]
    rw [List.filter_append, passes, List.getLast?_concat]

/-- The last entry of a table whose key folds to a given one decides in lower case. -/
theorem get?_lowered (t : RunnerTable) (normal : String) :
    t.lowered.get? normal =
      (t.entries.filter fun m => Text.toLower m.1 = normal).getLast?.map Prod.snd := by
  have written : t.lowered.get? normal = Entries.get? normal (Entries.insertAll []
      (t.entries.map fun m => (Text.toLower m.1, m.2))) := rfl
  rw [written, Entries.get?_insertAll_reverse, Entries.get?, Option.or_none, ← List.map_reverse,
    Entries.get?_eq_find?, List.find?_map, List.getLast?_filter, Option.map_map]
  rfl

/-- In lower case a label has the last platform of the spelling that appeared last. -/
theorem get?_lowered_ofList (ms : List (String × Platform)) (normal : String) :
    (lowered (Dict.ofList ms)).get? normal =
      (latestSpelling? ms normal).bind fun spelling => Entries.get? spelling ms.reverse := by
  -- a numeral has no other spelling, so it does not matter where its key stands
  have alone : ∀ key, indexKey? key ≠ none → decide (Text.toLower key = normal) = true →
      ∀ s, decide (Text.toLower s = normal) = true → s = key := by
    intro key index alike s alike'
    rw [decide_eq_true_eq] at alike alike'
    exact Text.eq_of_toLower_index index (alike'.trans alike.symm)
  have latest : latestSpelling? ms normal = ((Dict.ofList ms).entries.filter fun m =>
      Text.toLower m.1 = normal).getLast?.map Prod.fst := by
    rw [latestSpelling?, ← Entries.filter_keys_insertAll alone ms, List.filter_map,
      List.getLast?_map]
    rfl
  rw [get?_lowered, latest]
  cases last : ((Dict.ofList ms).entries.filter fun m =>
      Text.toLower m.1 = normal).getLast? with
  | none => rfl
  | some m =>
      have member := (List.mem_filter.mp (List.mem_of_getLast? last)).1
      have value : (Dict.ofList ms).get? m.1 = some m.2 := Dict.get?_eq_some_iff.mpr member
      have kept : (Dict.ofList ms).get? m.1 = Entries.get? m.1 ms.reverse :=
        (Entries.get?_insertAll_reverse [] ms m.1).trans (Option.or_none)
      exact (kept.symm.trans value).symm

/-- Which platform mappings give to a label in lower case. -/
structure Decides (ms : List (String × Platform)) (normal : String) (platform : Platform) :
    Prop where
  decided : ∃ spelling, latestSpelling? ms normal = some spelling ∧
    Entries.get? spelling ms.reverse = some platform
  lastWins : ∀ before last after, ms = before ++ last :: after →
    Text.toLower last.1 = normal → (∀ m ∈ after, Text.toLower m.1 ≠ normal) →
    (last.1 ∈ before.map Prod.fst → latestSpelling? before normal = some last.1) →
    platform = last.2

theorem decides_of_latest {spelling : String} {platform : Platform}
    (latest : latestSpelling? ms normal = some spelling)
    (value : Entries.get? spelling ms.reverse = some platform) : Decides ms normal platform where
  decided := ⟨spelling, latest, value⟩
  lastWins := by
    intro before last after same alike others current
    subst same
    rw [List.append_cons, latestSpelling_append others,
      latestSpelling_concat alike current] at latest
    cases latest
    have behind : Entries.get? last.1 after.reverse = none := by
      rw [Entries.get?_eq_none_iff, List.map_reverse, List.mem_reverse]
      intro listed
      obtain ⟨m, member, key⟩ := List.mem_map.mp listed
      exact others m member (key ▸ alike)
    rw [List.reverse_append, List.reverse_cons, List.append_assoc, Entries.get?_append, behind,
      Option.none_or, List.singleton_append, Entries.get?, if_pos rfl] at value
    exact (Option.some.inj value).symm

theorem exists_platform {label : String} {m : String × Platform} (given : m ∈ ms)
    (alike : Text.toLower m.1 = Text.toLower (Text.trim label)) :
    ∃ platform, platform? (Dict.ofList ms) label = some (.own platform) ∧
      Decides ms (Text.toLower (Text.trim label)) platform := by
  obtain ⟨spelling, latest⟩ := exists_latestSpelling given alike
  have listed : Entries.get? spelling ms.reverse ≠ none := by
    rw [ne_eq, Entries.get?_eq_none_iff, List.map_reverse, List.mem_reverse, not_not]
    exact mem_of_latestSpelling latest
  obtain ⟨platform, value⟩ := Option.ne_none_iff_exists'.mp listed
  refine ⟨platform, ?_, decides_of_latest latest value⟩
  have found : (lowered (Dict.ofList ms)).get? (Text.toLower (Text.trim label)) =
      some platform := by
    rw [get?_lowered_ofList, latest, Option.bind_some, value]
  have merged : (known.merge (lowered (Dict.ofList ms))).get? (Text.toLower (Text.trim label)) =
      some platform := by
    rw [Dict.get?_merge, found, Option.some_or]
  simp only [platform?, Dict.read?_of_get? merged, Option.some_or]

/-- A label that is only given as the key of the prototype is not looked up. -/
theorem platform?_of_unlike {label : String}
    (prototype : Text.toLower (Text.trim label) = Dict.prototypeKey)
    (unlike : ∀ m ∈ ms, Text.toLower m.1 ≠ Dict.prototypeKey) :
    platform? (Dict.ofList ms) label = some (.inherited Dict.prototypeKey) := by
  have absent : (known.merge (lowered (Dict.ofList ms))).get? Dict.prototypeKey = none := by
    rw [Dict.get?_merge, get?_lowered_ofList, latestSpelling_eq_none unlike, Option.bind_none,
      Option.none_or]
    decide
  have read := Dict.read?_of_absent absent
  rw [if_pos (by decide)] at read
  simp only [platform?, prototype, read, Option.some_or]

end RunnerTable

/-! ### Entries of a setting -/

namespace CommandLine.Setting

/-- An entry gives a platform to a label: the name of the platform, in any case,
    stands behind the first equals sign and the label before it. -/
def Maps (entry : String) (m : String × Platform) : Prop :=
  ∃ label name, Text.trimChars entry.toList = label ++ '=' :: name ∧ '=' ∉ label ∧
    m.1 = String.ofList (Text.trimChars label) ∧ m.1 ≠ "" ∧
    Text.toLower (Text.trim (String.ofList name)) = m.2.name

theorem maps_of_mapping {entry : String} {m : String × Platform}
    (read : mapping? (Text.trimChars entry.toList) = some m) : Maps entry m := by
  simp only [mapping?] at read
  split at read
  · cases read
  · next label name cut =>
      split at read
      · cases read
      · next shown =>
          obtain ⟨platform, named, rfl⟩ := Option.map_eq_some_iff.mp read
          refine ⟨label, name, Text.breakAt?_eq_some cut, Text.notMem_of_breakAt? cut, rfl, ?_,
            Platform.ofName?_eq_some.mp named⟩
          rw [List.isEmpty_iff] at shown
          exact mt String.ofList_eq_empty_iff.mp shown

theorem forall₂_of_mappings {entries : List String} {ms : List (String × Platform)}
    (read : mappings entries = .ok ms) :
    List.Forall₂ Maps (Text.nonblank entries) ms := by
  induction entries generalizing ms with
  | nil =>
      cases read
      exact .nil
  | cons entry rest ih =>
      have empty := Text.isEmpty_trimChars_iff entry
      simp only [mappings] at read
      split at read
      · next blank =>
          rw [Text.nonblank_cons_of_blank (empty.mp blank)]
          exact ih read
      · next filled =>
          rw [Text.nonblank_cons (mt empty.mpr filled)]
          split at read
          · next m first =>
              obtain ⟨others, behind, rfl⟩ := exists_of_map_eq_ok read
              exact .cons (maps_of_mapping first) (ih behind)
          · cases read

/-- **The spelling that appeared last decides.**  In an accepted setting every
    entry that is not blank gives a platform to a label.  A label that some entry
    gives, but for blanks around it and case, has a platform, whatever the other
    entries and the known labels say: the last one given to the spelling that
    appeared last.  It is the last one given to the label if the last entry does
    not go back to an older spelling.  Entries whose label is spelled as the key
    of the prototype do not count; a label that has no other entry finds what
    every table inherits. -/
theorem runners_latest {s : Setting} {table : RunnerTable} (accepted : s.runners = .ok table) :
    ∃ entries ms, s.entries = .ok entries ∧ mappings entries = .ok ms ∧
      List.Forall₂ Maps (Text.nonblank entries) ms ∧
      ∀ label, (∃ m ∈ ms, Text.toLower m.1 = Text.toLower (Text.trim label)) →
        (∃ platform, table.platform? label = some (.own platform) ∧
          RunnerTable.Decides (RunnerTable.collected ms) (Text.toLower (Text.trim label)) platform) ∨
        (∀ m ∈ ms, Text.toLower m.1 = Text.toLower (Text.trim label) → m.1 = Dict.prototypeKey) ∧
          table.platform? label = some (.inherited Dict.prototypeKey) := by
  obtain ⟨entries, listed, accepted⟩ := exists_of_bind_eq_ok accepted
  obtain ⟨ms, read, accepted⟩ := exists_of_bind_eq_ok accepted
  cases accepted
  refine ⟨entries, ms, listed, read, forall₂_of_mappings read, ?_⟩
  rintro label ⟨m, given, alike⟩
  rw [RunnerTable.assignAll_eq_ofList]
  by_cases kept : ∃ m ∈ RunnerTable.collected ms, Text.toLower m.1 = Text.toLower (Text.trim label)
  · obtain ⟨m, kept, alike⟩ := kept
    exact .inl (RunnerTable.exists_platform kept alike)
  · have prototype : ∀ m ∈ ms, Text.toLower m.1 = Text.toLower (Text.trim label) →
        m.1 = Dict.prototypeKey := by
      intro m given alike
      by_contra plain
      exact kept ⟨m, List.mem_filter.mpr ⟨given, by simp [plain]⟩, alike⟩
    have normal : Text.toLower (Text.trim label) = Dict.prototypeKey := by
      rw [← alike, prototype m given alike]
      decide +kernel
    rw [normal] at kept
    refine .inr ⟨prototype, RunnerTable.platform?_of_unlike normal fun m given alike => ?_⟩
    exact kept ⟨m, given, alike⟩

theorem runners_latest_gpu :
    (many [.text "GPU = Linux, ,7=macos", .text "gpu=macos,gpu=windows"]).runners =
      .ok (Dict.ofList [("GPU", .linux), ("7", .macos), ("gpu", .macos), ("gpu", .windows)]) ∧
    RunnerTable.platform? (Dict.ofList
      [("GPU", .linux), ("7", .macos), ("gpu", .macos), ("gpu", .windows)]) " Gpu" =
      some (.own .windows) := by
  have accepted : (many [.text "GPU = Linux, ,7=macos", .text "gpu=macos,gpu=windows"]).runners =
      .ok (Dict.ofList [("GPU", .linux), ("7", .macos), ("gpu", .macos), ("gpu", .windows)]) :=
    eq_ok_of_toOption (by decide +kernel)
  refine ⟨accepted, ?_⟩
  obtain ⟨entries, ms, listed, read, -, platforms⟩ := runners_latest accepted
  have parts : (many [.text "GPU = Linux, ,7=macos", .text "gpu=macos,gpu=windows"]).entries =
      .ok ["GPU = Linux", " ", "7=macos", "gpu=macos", "gpu=windows"] :=
    eq_ok_of_toOption (by decide +kernel)
  cases parts.symm.trans listed
  have pairs : mappings ["GPU = Linux", " ", "7=macos", "gpu=macos", "gpu=windows"] =
      .ok [("GPU", .linux), ("7", .macos), ("gpu", .macos), ("gpu", .windows)] :=
    eq_ok_of_toOption (by decide +kernel)
  cases pairs.symm.trans read
  have given : ("GPU", Platform.linux) ∈
      [("GPU", .linux), ("7", .macos), ("gpu", .macos), ("gpu", .windows)] := List.mem_cons_self
  have alike : Text.toLower "GPU" = Text.toLower (Text.trim " Gpu") := by decide +kernel
  rcases platforms " Gpu" ⟨_, given, alike⟩ with ⟨platform, found, decides⟩ | ⟨only, -⟩
  · have wins := decides.lastWins [("GPU", .linux), ("7", .macos), ("gpu", .macos)]
      ("gpu", .windows) [] rfl (by decide +kernel) nofun fun _ => by decide +kernel
    rw [found, wins]
  · exact absurd (only _ given alike) (by decide)

/-- A label that is given again in its older spelling keeps the platform of the
    newer one. -/
theorem runners_older_spelling :
    mappings ["GPU=linux", "gpu=macos", "GPU=windows"] =
      .ok [("GPU", .linux), ("gpu", .macos), ("GPU", .windows)] ∧
    ∃ table, (one (.text "GPU=linux,gpu=macos,GPU=windows")).runners = .ok table ∧
      Text.toLower "GPU" = Text.toLower (Text.trim "gpu") ∧
      table.platform? "gpu" = some (.own .macos) := by
  refine ⟨eq_ok_of_toOption (by decide +kernel),
    Dict.ofList [("GPU", .windows), ("gpu", .macos)], ?_, by decide +kernel, by decide +kernel⟩
  exact eq_ok_of_toOption (by decide +kernel)

end CommandLine.Setting

end JobMatrix
