import Mathlib.Data.List.Nodup
import JobMatrix.Matrix.Unresolvable
import JobMatrix.Proofs.Matrix.Resolution
import JobMatrix.Proofs.Workflow.Strategies
import JobMatrix.Text.Search

/-! # Rules that are reported

A rule is looked through key by key for references that nothing declares, and
is matched against whole combinations when the matrix is resolved.  The two
agree: a rule is reported exactly if there is no combination that it matches.
-/

namespace JobMatrix

instance Scalar.decidableIsProper : DecidablePred Scalar.IsProper
  | .number n => inferInstanceAs (Decidable (n.isFinite = true))
  | .bool _ | .text _ => .isTrue trivial

theorem Scalar.isSame_eq_equals {v : Scalar} (proper : v.IsProper) (w : Scalar) :
    w.isSame v = w.equals v := by
  rw [Bool.eq_iff_iff, isSame, beq_iff_eq]
  cases v with
  | bool | text => cases w <;> simp [equals, plainZero]
  | number n =>
      cases n with
      | nan | infinity => cases proper
      | finite negative units =>
          cases w with
          | bool | text => simp [equals, plainZero]
          | number m =>
              cases m with
              | nan | infinity =>
                  cases units <;> simp [equals, plainZero, Number.plainZero, Number.equals]
              | finite negative' units' =>
                  cases units <;> cases units' <;>
                    simp [equals, plainZero, Number.plainZero, Number.equals]

namespace Matrix

def Declares (dimensions : List Dimension) (key : String) (value : Scalar) : Prop :=
  ∃ d ∈ dimensions, d.name = key ∧ ∃ v ∈ d.values, v.equals value = true

/-! ## What combinations there are -/

theorem get?_of_mem_crossProduct {dimensions : List Dimension}
    (distinct : (dimensions.map (·.name)).Nodup) {c : Combination}
    (member : c ∈ crossProduct dimensions) {key : String} {v : Scalar}
    (found : c.get? key = some v) : ∃ d ∈ dimensions, d.name = key ∧ v ∈ d.values := by
  have some : dimensions ≠ [] := by
    rintro rfl
    cases member
  rw [crossProduct_eq some] at member
  obtain ⟨pick, among, rfl⟩ := List.mem_map.mp member
  have holds := holds_ofList (names_of_mem_picks among ▸ distinct)
  exact exists_of_mem_picks among ((holds key v).mp found)

theorem exists_equal_iff {dimensions : List Dimension} (some : dimensions ≠ [])
    (distinct : (dimensions.map (·.name)).Nodup) (nonempty : ∀ d ∈ dimensions, d.values ≠ [])
    (rule : Combination) (counts : String → Prop) :
    (∃ c ∈ crossProduct dimensions, ∀ key ∈ rule.keys, counts key → EqualAt c rule key) ↔
      ∀ entry ∈ rule.entries, counts entry.1 → Declares dimensions entry.1 entry.2 := by
  constructor
  · rintro ⟨c, member, equal⟩ ⟨key, value⟩ listed counted
    obtain ⟨v, w, found, named, same⟩ := equal key (List.mem_map_of_mem listed) counted
    obtain rfl : w = value := Option.some.inj (named.symm.trans (Dict.get?_eq_some_iff.mpr listed))
    obtain ⟨d, among, name, declared⟩ := get?_of_mem_crossProduct distinct member found
    exact ⟨d, among, name, v, declared, same⟩
  · intro declared
    have fits (d : Dimension) : ∃ v, d ∈ dimensions → v ∈ d.values ∧
        ∀ value, (d.name, value) ∈ rule.entries → counts d.name → v.equals value = true := by
      by_cases among : d ∈ dimensions
      · by_cases wanted : ∃ value, (d.name, value) ∈ rule.entries ∧ counts d.name
        · obtain ⟨value, listed, counted⟩ := wanted
          obtain ⟨e, among', name, v, member, same⟩ := declared _ listed counted
          obtain rfl : e = d := List.inj_on_of_nodup_map distinct among' among name
          refine ⟨v, fun _ => ⟨member, fun value' listed' _ => ?_⟩⟩
          have unique := Dict.get?_eq_some_iff.mpr listed
          rw [Dict.get?_eq_some_iff.mpr listed'] at unique
          rwa [Option.some.inj unique]
        · obtain ⟨v, member⟩ := List.exists_mem_of_ne_nil d.values (nonempty d among)
          exact ⟨v, fun _ => ⟨member, fun value listed counted =>
            absurd ⟨value, listed, counted⟩ wanted⟩⟩
      · exact ⟨default, fun member => absurd member among⟩
    choose choice chosen using fits
    have picked := map_mem_picks fun d among => (chosen d among).1
    refine ⟨_, crossProduct_eq some ▸ List.mem_map_of_mem picked, fun key named counted => ?_⟩
    obtain ⟨⟨name, value⟩, listed, rfl⟩ := List.mem_map.mp named
    obtain ⟨d, among, rfl, -⟩ := declared (name, value) listed counted
    exact ⟨choice d, value, get?_ofList_map distinct choice among,
      Dict.get?_eq_some_iff.mpr listed, (chosen d among).2 value listed counted⟩

/-! ## What references there are -/

theorem declared?_eq_some_iff {dimensions : List Dimension}
    (distinct : (dimensions.map (·.name)).Nodup) {key : String} {values : List Scalar} :
    declared? dimensions key = some values ↔
      ∃ d ∈ dimensions, d.name = key ∧ d.values = values := by
  unfold declared?
  constructor
  · intro found
    obtain ⟨d, first, rfl⟩ := Option.map_eq_some_iff.mp found
    exact ⟨d, List.mem_reverse.mp (List.mem_of_find?_eq_some first),
      by simpa using List.find?_some first, rfl⟩
  · rintro ⟨d, among, rfl, rfl⟩
    cases found : dimensions.reverse.find? fun e => e.name == d.name with
    | none =>
        have missed := List.find?_eq_none.mp found d (List.mem_reverse.mpr among)
        exact absurd (beq_self_eq_true d.name) missed
    | some e =>
        have listed := List.mem_reverse.mp (List.mem_of_find?_eq_some found)
        have name : e.name = d.name := by simpa using List.find?_some found
        rw [List.inj_on_of_nodup_map distinct listed among name]
        rfl

theorem declared?_eq_none_iff {dimensions : List Dimension} {key : String} :
    declared? dimensions key = none ↔ key ∉ dimensions.map (·.name) := by
  simp [declared?]

section Rules

variable {dimensions : List Dimension} (distinct : (dimensions.map (·.name)).Nodup)
  {rule : Combination} (proper : ∀ v ∈ rule.values, v.IsProper)

include distinct

theorem declares_iff {key : String} {value : Scalar} (proper : value.IsProper) :
    Declares dimensions key value ↔
      ∃ values, declared? dimensions key = some values ∧ values.any (·.isSame value) = true := by
  simp only [declared?_eq_some_iff distinct, List.any_eq_true, Scalar.isSame_eq_equals proper,
    Declares]
  constructor
  · rintro ⟨d, among, name, declared⟩
    exact ⟨d.values, ⟨d, among, name, rfl⟩, declared⟩
  · rintro ⟨-, ⟨d, among, name, rfl⟩, declared⟩
    exact ⟨d, among, name, declared⟩

include proper

theorem unresolvableInExclude_eq_nil_iff (index : Nat) :
    unresolvableInExclude dimensions index rule = [] ↔
      ∀ entry ∈ rule.entries, Declares dimensions entry.1 entry.2 := by
  rw [unresolvableInExclude, List.filterMap_eq_nil_iff]
  refine forall_congr' fun ⟨key, value⟩ => forall_congr' fun listed => ?_
  rw [declares_iff distinct (proper value (List.mem_map_of_mem listed))]
  cases found : declared? dimensions key with
  | none => simp [found]
  | some values => simp [found]

theorem unresolvableInInclude_eq_nil_iff (index : Nat) :
    unresolvableInInclude dimensions index rule = [] ↔
      ∀ entry ∈ rule.entries, entry.1 ∈ dimensions.map (·.name) →
        Declares dimensions entry.1 entry.2 := by
  rw [unresolvableInInclude, List.filterMap_eq_nil_iff]
  refine forall_congr' fun ⟨key, value⟩ => forall_congr' fun listed => ?_
  rw [declares_iff distinct (proper value (List.mem_map_of_mem listed))]
  cases found : declared? dimensions key with
  | none =>
      have missing := declared?_eq_none_iff.mp found
      simp [found, missing]
  | some values =>
      have named : key ∈ dimensions.map (·.name) := by
        by_contra missing
        rw [declared?_eq_none_iff.mpr missing] at found
        cases found
      simp [found, named]

end Rules

/-! ## Which rule is reported -/

/-- A diagnostic reports the rule at a place of a list: its message starts with
    the name of the list and the place. -/
def Reports (list : String) (place : Nat) (d : Diagnostic) : Prop :=
  d.kind = .unresolvableDimensionValue ∧
    ∃ rest, d.message = list ++ "[" ++ toString place ++ "]" ++ rest

namespace Unresolvable

/-- The list of the rule of a reference, and the place of the rule in it. -/
def source : Unresolvable → String × Nat
  | unknownDimension rule _ | excludedValue rule _ _ => ("exclude", rule)
  | includedValue rule _ _ => ("include", rule)

theorem message_eq (u : Unresolvable) :
    ∃ rest, u.message = u.source.1 ++ "[" ++ toString u.source.2 ++ "]" ++ rest := by
  have literal (s : String) : toString s = s := rfl
  cases u with
  | unknownDimension rule key =>
      refine ⟨" names unknown dimension \"" ++ key ++ "\"", ?_⟩
      simp [← String.toList_inj, message, source, literal]
  | excludedValue rule key value | includedValue rule key value =>
      refine ⟨" names undeclared value " ++ value.toData.toJson ++ " for \"" ++ key ++ "\"", ?_⟩
      simp [← String.toList_inj, message, source, literal]

theorem bracket_notMem_toDigits {place : Nat} : ']' ∉ Nat.toDigits 10 place := by
  intro member
  have digit := Nat.isDigit_of_mem_toDigits (by decide) (by decide) member
  cases digit

theorem bracket_notMem_source (u : Unresolvable) : '[' ∉ u.source.1.toList := by
  cases u <;> simp [source]

/-- The start of a message tells the rule. -/
theorem reports_iff {list : String} (plain : '[' ∉ list.toList) (place : Nat) (u : Unresolvable) :
    Reports list place u.toDiagnostic ↔ u.source = (list, place) := by
  obtain ⟨rest, message⟩ := u.message_eq
  constructor
  · rintro ⟨-, rest', message'⟩
    have same := congrArg String.toList (message.symm.trans message')
    simp only [String.toList_append, List.append_assoc, Nat.toString_eq_repr,
      Nat.toList_repr] at same
    obtain ⟨lists, behind⟩ := Text.eq_of_append_mark u.bracket_notMem_source plain same
    obtain ⟨places, -⟩ :=
      Text.eq_of_append_mark bracket_notMem_toDigits bracket_notMem_toDigits behind
    refine Prod.ext (String.toList_inj.mp lists) ?_
    have numbers := congrArg (Nat.ofDigitChars 10 · 0) places
    simpa only [Nat.ofDigitChars_ten_toDigits] using numbers
  · intro same
    rw [same] at message
    exact ⟨rfl, rest, message⟩

end Unresolvable

theorem source_of_mem_exclude {dimensions : List Dimension} {index : Nat} {rule : Combination}
    {u : Unresolvable} (member : u ∈ unresolvableInExclude dimensions index rule) :
    u.source = ("exclude", index) := by
  obtain ⟨⟨key, value⟩, -, found⟩ := List.mem_filterMap.mp member
  dsimp only at found
  split at found
  · cases found
    rfl
  · split at found
    · cases found
    · cases found
      rfl

theorem source_of_mem_include {dimensions : List Dimension} {index : Nat} {rule : Combination}
    {u : Unresolvable} (member : u ∈ unresolvableInInclude dimensions index rule) :
    u.source = ("include", index) := by
  obtain ⟨⟨key, value⟩, -, found⟩ := List.mem_filterMap.mp member
  dsimp only at found
  split at found
  · cases found
  · split at found
    · cases found
    · cases found
      rfl

theorem exists_reports_iff {s : Strategy} {list : String} (plain : '[' ∉ list.toList)
    (references : Nat → Combination → List Unresolvable) {rules : List Combination}
    (before after : List Unresolvable)
    (split : s.unresolvable =
      before ++ (rules.zipIdx.flatMap fun (rule, index) => references index rule) ++ after)
    (source : ∀ {index rule u}, u ∈ references index rule → u.source = (list, index))
    (foreign : ∀ u ∈ before ++ after, u.source.1 ≠ list) {place : Nat} {rule : Combination}
    (found : rules[place]? = some rule) :
    (∃ d ∈ s.unresolvable.map (·.toDiagnostic), Reports list place d) ↔
      references place rule ≠ [] := by
  simp only [List.mem_map, exists_exists_and_eq_and, Unresolvable.reports_iff plain, split]
  constructor
  · rintro ⟨u, member, same⟩
    have own : u ∉ before ++ after := fun other => foreign u other (by rw [same])
    obtain ⟨outside, behind⟩ := not_or.mp (List.mem_append.not.mp own)
    have among := (List.mem_append.mp member).resolve_right behind
    obtain ⟨⟨other, index⟩, listed, member⟩ :=
      List.mem_flatMap.mp ((List.mem_append.mp among).resolve_left outside)
    obtain rfl : index = place := congrArg Prod.snd ((source member).symm.trans same)
    obtain rfl : other = rule :=
      Option.some.inj ((List.mem_zipIdx_iff_getElem?.mp listed).symm.trans found)
    exact List.ne_nil_of_mem member
  · intro some
    obtain ⟨u, member⟩ := List.exists_mem_of_ne_nil _ some
    have among : u ∈ rules.zipIdx.flatMap fun (rule, index) => references index rule :=
      List.mem_flatMap.mpr ⟨(rule, place), List.mem_zipIdx_iff_getElem?.mpr found, member⟩
    exact ⟨u, List.mem_append_left _ (List.mem_append_right _ among), source member⟩

theorem reports_exclude_iff {s : Strategy} {place : Nat} {rule : Combination}
    (found : s.excludes[place]? = some rule) :
    (∃ d ∈ s.unresolvable.map (·.toDiagnostic), Reports "exclude" place d) ↔
      unresolvableInExclude s.dimensions place rule ≠ [] := by
  refine exists_reports_iff (by decide) (unresolvableInExclude s.dimensions) [] _ rfl
    source_of_mem_exclude ?_ found
  intro u member
  obtain ⟨_, -, member⟩ := List.mem_flatMap.mp member
  simp [source_of_mem_include member]

theorem reports_include_iff {s : Strategy} {place : Nat} {rule : Combination}
    (found : s.includes[place]? = some rule) :
    (∃ d ∈ s.unresolvable.map (·.toDiagnostic), Reports "include" place d) ↔
      unresolvableInInclude s.dimensions place rule ≠ [] := by
  refine exists_reports_iff (by decide) (unresolvableInInclude s.dimensions) _ []
    (List.append_nil _).symm source_of_mem_include ?_ found
  intro u member
  rw [List.append_nil] at member
  obtain ⟨_, -, member⟩ := List.mem_flatMap.mp member
  simp [source_of_mem_exclude member]

/-- **Reports agree with resolution.**  Where every dimension has a name of its
    own and some values, an exclude rule of scalars is reported at least once if
    and only if it matches no combination of the full cross product, and an
    include rule if and only if no combination has its values on the dimensions
    that it names. -/
theorem reported_iff_unmatched {s : Strategy} (some : s.dimensions ≠ [])
    (distinct : (s.dimensions.map (·.name)).Nodup) (nonempty : ∀ d ∈ s.dimensions, d.values ≠ [])
    (proper : ∀ rule ∈ s.excludes ++ s.includes, ∀ v ∈ rule.values, v.IsProper) :
    (∀ place rule, s.excludes[place]? = .some rule →
      ((∃ d ∈ s.unresolvable.map (·.toDiagnostic), Reports "exclude" place d) ↔
        ∀ c ∈ crossProduct s.dimensions, ¬ Matches c rule)) ∧
    ∀ place rule, s.includes[place]? = .some rule →
      ((∃ d ∈ s.unresolvable.map (·.toDiagnostic), Reports "include" place d) ↔
        ∀ c ∈ crossProduct s.dimensions, ¬ Agrees (s.dimensions.map (·.name)) c rule) := by
  constructor
  · intro place rule found
    have scalars := proper rule (List.mem_append_left _ (List.mem_of_getElem? found))
    have matched := exists_equal_iff some distinct nonempty rule fun _ => True
    rw [reports_exclude_iff found, ne_eq, unresolvableInExclude_eq_nil_iff distinct scalars]
    simp only [true_implies] at matched
    rw [← matched]
    simp only [Matches, not_exists, not_and]
  · intro place rule found
    have scalars := proper rule (List.mem_append_right _ (List.mem_of_getElem? found))
    have matched := exists_equal_iff some distinct nonempty rule (· ∈ s.dimensions.map (·.name))
    rw [reports_include_iff found, ne_eq, unresolvableInInclude_eq_nil_iff distinct scalars,
      ← matched]
    simp only [Agrees, not_exists, not_and]

/-- A matrix with a rule that has a truth value where texts are declared. -/
def mistyped : Strategy :=
  { Strategy.default with
    dimensions := [⟨"os", [.text "linux", .text "macos"]⟩, ⟨"debug", [.text "true", .text "false"]⟩]
    excludes := [⟨[("os", .text "linux"), ("debug", .text "true")], by decide⟩,
      ⟨[("debug", .bool true)], by decide⟩]
    includes := [⟨[("os", .text "macos"), ("slow", .bool true)], by decide⟩] }

theorem reported_iff_unmatched_mistyped :
    mistyped.dimensions ≠ [] ∧ (mistyped.dimensions.map (·.name)).Nodup ∧
    (∀ d ∈ mistyped.dimensions, d.values ≠ []) ∧
    (∀ rule ∈ mistyped.excludes ++ mistyped.includes, ∀ v ∈ rule.values, v.IsProper) ∧
    ((∃ d ∈ mistyped.unresolvable.map (·.toDiagnostic), Reports "exclude" 1 d) ↔
      ∀ c ∈ crossProduct mistyped.dimensions,
        ¬ Matches c ⟨[("debug", .bool true)], by decide⟩) := by
  have nonempty : mistyped.dimensions ≠ [] := nofun
  have distinct : (mistyped.dimensions.map (·.name)).Nodup := by decide
  have filled : ∀ d ∈ mistyped.dimensions, d.values ≠ [] := by decide
  have proper : ∀ rule ∈ mistyped.excludes ++ mistyped.includes, ∀ v ∈ rule.values, v.IsProper := by
    decide
  obtain ⟨excludes, -⟩ := reported_iff_unmatched nonempty distinct filled proper
  exact ⟨nonempty, distinct, filled, proper, excludes 1 _ rfl⟩

end Matrix

end JobMatrix
