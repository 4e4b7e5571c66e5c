import JobMatrix.Workflow.ActionReference

/-! # The format of references to actions

What a text must be to name an image, a directory of the workspace, or a
repository with a version, with no reader in sight.  No text is written for two
references, the reader finds the one that it is written for, and a reference is
read back from its own text.
-/

namespace JobMatrix.ActionReference

/-- The name of a directory of a repository: at least two segments, none of them
    empty, with slashes between them. -/
def IsRepository (name : String) : Prop :=
  ∃ segments : List String, 2 ≤ segments.length ∧
    (∀ segment ∈ segments, segment ≠ "" ∧ '/' ∉ segment.toList) ∧ name = "/".intercalate segments

def IsImage (text : String) : Prop :=
  ∃ rest, text = "docker://" ++ rest

def IsPath (text : String) : Prop :=
  ∃ rest, text = "./" ++ rest ∨ text = "../" ++ rest

/-- A text is written for a reference. -/
inductive Written (text : String) : ActionReference → Prop
  | docker (image : IsImage text) : Written text (.docker text)
  | directory (path : IsPath text) : Written text (.directory text)
  | external {name version : String} (noImage : ¬ IsImage text) (noPath : ¬ IsPath text)
      (parts : text = name ++ "@" ++ version) (some : version ≠ "")
      (nameOnce : '@' ∉ name.toList) (versionOnce : '@' ∉ version.toList)
      (repository : IsRepository name) : Written text (.external name version)

theorem startsWith_iff {text start : String} :
    Text.startsWith text.toList start.toList = true ↔ ∃ rest, text = start ++ rest := by
  rw [Text.startsWith, Option.isSome_iff_exists]
  simp only [Text.dropStart?_eq_some]
  constructor
  · rintro ⟨after, same⟩
    exact ⟨String.ofList after, String.toList_injective (by rw [same]; simp)⟩
  · rintro ⟨rest, rfl⟩
    exact ⟨rest.toList, String.toList_append⟩

theorem IsPath.not_isImage {text : String} (path : IsPath text) : ¬ IsImage text := by
  rintro ⟨rest, rfl⟩
  obtain ⟨behind, same | same⟩ := path
  all_goals
    have first := congrArg (fun text => text.toList.head?) same
    simp at first

/-- The segments of a name are what slashes divide it into. -/
theorem isRepository_iff {cs : List Char} :
    IsRepository (String.ofList cs) ↔
      2 ≤ (Text.splitAt '/' cs).length ∧ ∀ segment ∈ Text.splitAt '/' cs, segment ≠ [] := by
  constructor
  · rintro ⟨segments, two, plain, same⟩
    have split : Text.splitAt '/' cs = segments.map String.toList := by
      rw [Text.splitAt_eq_iff]
      refine ⟨?_, ?_, ?_⟩
      · cases segments <;> simp at two ⊢
      · exact List.forall_mem_map.mpr fun segment member => (plain segment member).2
      · simpa using congrArg String.toList same
    rw [split]
    refine ⟨by simpa using two, List.forall_mem_map.mpr fun segment member => ?_⟩
    simpa using (plain segment member).1
  · rintro ⟨two, nonempty⟩
    obtain ⟨-, plain, same⟩ := Text.splitAt_eq_iff.mp (rfl : Text.splitAt '/' cs = _)
    refine ⟨(Text.splitAt '/' cs).map String.ofList, by simpa using two,
      List.forall_mem_map.mpr fun segment member => ?_, String.toList_injective ?_⟩
    · simpa using ⟨nonempty segment member, plain segment member⟩
    · simpa [Function.comp_def] using same

theorem splitAt_at_iff {text name version : String} :
    Text.splitAt '@' text.toList = [name.toList, version.toList] ↔
      text = name ++ "@" ++ version ∧ '@' ∉ name.toList ∧ '@' ∉ version.toList := by
  rw [Text.splitAt_eq_iff, ← String.toList_inj]
  simp [List.intercalate_cons_cons, and_comm]

theorem external?_eq_some_iff {text : String} {r : ActionReference} :
    external? text.toList = some r ↔ ∃ name version, r = .external name version ∧
      (text = name ++ "@" ++ version ∧ '@' ∉ name.toList ∧ '@' ∉ version.toList) ∧
      version ≠ "" ∧ IsRepository name := by
  simp only [← splitAt_at_iff]
  constructor
  · intro h
    unfold external? at h
    split at h
    · next name version parts =>
        dsimp only at h
        split at h
        · cases h
        next accepted =>
        cases h
        simp only [Bool.or_eq_true, List.isEmpty_iff, decide_eq_true_eq, List.any_eq_true, not_or,
          not_exists, not_and, Nat.not_lt] at accepted
        obtain ⟨⟨some, two⟩, nonempty⟩ := accepted
        refine ⟨_, _, rfl, by simpa using parts, by simpa using some, ?_⟩
        exact isRepository_iff.mpr ⟨two, nonempty⟩
    · cases h
  · rintro ⟨name, version, rfl, parts, some, repository⟩
    rw [← name.ofList_toList, isRepository_iff] at repository
    obtain ⟨two, nonempty⟩ := repository
    unfold external?
    rw [parts]
    dsimp only
    rw [if_neg]
    · rw [String.ofList_toList, String.ofList_toList]
    · simp only [Bool.or_eq_true, List.isEmpty_iff, decide_eq_true_eq, List.any_eq_true, not_or,
        not_exists, not_and, Nat.not_lt, String.toList_eq_nil_iff]
      exact ⟨⟨some, two⟩, nonempty⟩

theorem parse?_eq_some_iff {s : String} {r : ActionReference} :
    parse? s = some r ↔ Written (Text.trim s) r := by
  have whole : (Text.trim s).toList = Text.trimChars s.toList := String.toList_ofList
  have image : Text.startsWith (Text.trimChars s.toList) "docker://".toList = true ↔
      IsImage (Text.trim s) := by
    rw [← whole]
    exact startsWith_iff
  have path : (Text.startsWith (Text.trimChars s.toList) "./".toList ||
      Text.startsWith (Text.trimChars s.toList) "../".toList) = true ↔ IsPath (Text.trim s) := by
    rw [← whole, Bool.or_eq_true, startsWith_iff, startsWith_iff, ← exists_or]
    exact Iff.rfl
  unfold parse?
  dsimp only
  by_cases isImage : IsImage (Text.trim s)
  · rw [if_pos (image.mpr isImage)]
    constructor
    · intro h
      cases h
      exact .docker isImage
    · intro written
      cases written with
      | docker => rfl
      | directory isPath => exact absurd isImage isPath.not_isImage
      | external noImage => exact absurd isImage noImage
  · rw [if_neg (mt image.mp isImage)]
    by_cases isPath : IsPath (Text.trim s)
    · rw [if_pos (path.mpr isPath)]
      constructor
      · intro h
        cases h
        exact .directory isPath
      · intro written
        cases written with
        | docker isImage' => exact absurd isImage' isImage
        | directory => rfl
        | external _ noPath => exact absurd isPath noPath
    · rw [if_neg (mt path.mp isPath), ← whole, external?_eq_some_iff]
      constructor
      · rintro ⟨name, version, rfl, ⟨parts, nameOnce, versionOnce⟩, some, repository⟩
        exact .external isImage isPath parts some nameOnce versionOnce repository
      · intro written
        cases written with
        | docker isImage' => exact absurd isImage' isImage
        | directory isPath' => exact absurd isPath' isPath
        | external _ _ parts some nameOnce versionOnce repository =>
            exact ⟨_, _, rfl, ⟨parts, nameOnce, versionOnce⟩, some, repository⟩

theorem Written.text_eq {text : String} {r : ActionReference} (h : Written text r) :
    r.text = text := by
  cases h with
  | docker | directory => rfl
  | external _ _ parts => exact parts.symm

/-- **The format of references.**  A text is a reference exactly if it is
    written for it, blanks around it ignored; a text that is written for none is
    refused.  The text of a reference that was read is what was read, and it
    reads as the same reference. -/
theorem format_exact (s : String) :
    (∀ r, parse? s = some r ↔ Written (Text.trim s) r) ∧
    (parse? s = none ↔ ∀ r, ¬ Written (Text.trim s) r) ∧
    ∀ r, parse? s = some r → r.text = Text.trim s ∧ parse? r.text = some r := by
  refine ⟨fun r => parse?_eq_some_iff, ?_, fun r read => ?_⟩
  · rw [Option.eq_none_iff_forall_ne_some]
    exact forall_congr' fun r => not_congr parse?_eq_some_iff
  · have written := parse?_eq_some_iff.mp read
    refine ⟨written.text_eq, ?_⟩
    rw [written.text_eq, parse?_eq_some_iff, Text.trim_trim]
    exact written

theorem format_exact_nested :
    parse? " actions/cache/save@v4\n" = some (.external "actions/cache/save" "v4") ∧
    Written (Text.trim " actions/cache/save@v4\n") (.external "actions/cache/save" "v4") ∧
    parse? "actions/cache/save@v4" = some (.external "actions/cache/save" "v4") := by
  have read : parse? " actions/cache/save@v4\n" = some (.external "actions/cache/save" "v4") := by
    decide +kernel
  obtain ⟨accepts, -, again⟩ := format_exact " actions/cache/save@v4\n"
  exact ⟨read, (accepts _).mp read, (again _ read).2⟩

example : parse? "owner//repo@v1" = none ∧ parse? "owner/repo@v1@v2" = none ∧
    parse? ".../repo@v1" = some (.external ".../repo" "v1") := by
  decide +kernel

end JobMatrix.ActionReference
