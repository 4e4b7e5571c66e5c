import JobMatrix.Proofs.Matrix.CrossProduct

/-! # What a matrix resolves to

Include rules are applied one after another, each to what the rules before have
made of the combinations.  All the same a rule only ever sees the values of the
dimensions, which no rule changes: what a combination becomes is told by the
rules that agree with the combination as it was, whatever their order.

A rule assigns its fields, so the key of the prototype is the one field that no
combination takes over.  A rule that becomes a combination of its own keeps it.
-/

namespace JobMatrix.Matrix

def EqualAt (c rule : Combination) (key : String) : Prop :=
  ∃ a b, c.get? key = some a ∧ rule.get? key = some b ∧ a.equals b = true

def Matches (c rule : Combination) : Prop :=
  ∀ key ∈ rule.keys, EqualAt c rule key

def Agrees (names : List String) (c rule : Combination) : Prop :=
  ∀ key ∈ rule.keys, key ∈ names → EqualAt c rule key

theorem agreesAt_iff {c rule : Combination} {key : String} :
    agreesAt c rule key = true ↔ EqualAt c rule key := by
  unfold agreesAt EqualAt
  split
  · next a b left right => simp [left, right]
  · next none =>
      constructor
      · intro impossible
        cases impossible
      · rintro ⟨a, b, left, right, -⟩
        exact absurd right (none a b left)

theorem matchesRule_iff {c rule : Combination} : matchesRule c rule = true ↔ Matches c rule := by
  simp only [matchesRule, agreesOn, List.all_eq_true, agreesAt_iff, Matches]

theorem accepts_iff {names : List String} {c rule : Combination} :
    accepts names rule c = true ↔ Agrees names c rule := by
  simp only [accepts, agreesOn, dimensionKeys, List.all_eq_true, agreesAt_iff, Agrees,
    List.mem_filter, List.contains_iff_mem, and_imp]

instance (c rule : Combination) : Decidable (Matches c rule) :=
  decidable_of_iff _ matchesRule_iff

instance (names : List String) (c rule : Combination) : Decidable (Agrees names c rule) :=
  decidable_of_iff _ accepts_iff

def lastNaming? (names : List String) (rules : List Combination) (c : Combination)
    (key : String) : Option Combination :=
  (rules.filter fun rule => key ∈ rule.keys ∧ Agrees names c rule).getLast?

/-- What some rules make of a combination: the dimensions keep their values, and
    every other key has the value of the last rule that names it.  Only the key
    of the prototype has none, unless it is a dimension. -/
structure Extended (names : List String) (rules : List Combination)
    (c final : Combination) : Prop where
  dimension : ∀ key ∈ names, final.get? key = c.get? key
  field : ∀ key ∉ names, key ≠ Dict.prototypeKey →
    final.get? key = (lastNaming? names rules c key).bind (·.get? key)
  prototype : Dict.prototypeKey ∉ names → final.get? Dict.prototypeKey = none

/-- Every key but the dimensions has the value of the last rule that names it. -/
def TakesAll (names : List String) (rules : List Combination) (c final : Combination) : Prop :=
  ∀ key ∉ names, final.get? key = (lastNaming? names rules c key).bind (·.get? key)

section Rules

variable {names : List String} {done : List Combination} {c current : Combination}

theorem Extended.refl (bare : ∀ key ∉ names, c.get? key = none) : Extended names [] c c :=
  ⟨fun _ _ => rfl, fun key outside _ => bare key outside, bare _⟩

theorem Extended.agrees_iff (h : Extended names done c current) (rule : Combination) :
    Agrees names current rule ↔ Agrees names c rule := by
  refine forall_congr' fun key => forall_congr' fun _ => forall_congr' fun inside => ?_
  rw [EqualAt, EqualAt, h.dimension key inside]

theorem lastNaming?_eq_none_iff {key : String} : lastNaming? names done c key = none ↔
    ∀ rule ∈ done, key ∈ rule.keys → ¬ Agrees names c rule := by
  simp [lastNaming?]

theorem Extended.takesAll_iff (h : Extended names done c current) :
    TakesAll names done c current ↔ Dict.prototypeKey ∈ names ∨
      ∀ rule ∈ done, Dict.prototypeKey ∈ rule.keys → ¬ Agrees names c rule := by
  rw [← lastNaming?_eq_none_iff]
  constructor
  · intro all
    by_cases inside : Dict.prototypeKey ∈ names
    · exact .inl inside
    have nothing := all _ inside
    rw [h.prototype inside] at nothing
    cases last : lastNaming? names done c Dict.prototypeKey with
    | none => exact .inr rfl
    | some rule =>
        have among := List.mem_filter.mp (List.mem_of_getLast? last)
        have named : Dict.prototypeKey ∈ rule.keys := (of_decide_eq_true among.2).1
        rw [last, Option.bind_some, eq_comm, Dict.get?_eq_none_iff] at nothing
        exact absurd named nothing
  · intro unread key outside
    by_cases plain : key = Dict.prototypeKey
    · subst plain
      rw [h.prototype outside, unread.resolve_left outside, Option.bind_none]
    · exact h.field key outside plain

theorem lastNaming?_concat (rule : Combination) (key : String) :
    lastNaming? names (done ++ [rule]) c key =
      if key ∈ rule.keys ∧ Agrees names c rule then some rule
      else lastNaming? names done c key := by
  unfold lastNaming?
  rw [List.filter_append, List.filter_singleton]
  by_cases last : key ∈ rule.keys ∧ Agrees names c rule
  · simp [last]
  · simp [last]

theorem get?_extraFields (rule : Combination) {key : String} (outside : key ∉ names) :
    (extraFields names rule).get? key = rule.get? key := by
  simp [extraFields, outside]

theorem get?_assignAll_extraFields (rule : Combination) (key : String) :
    (current.assignAll (extraFields names rule).entries).get? key =
      if key = Dict.prototypeKey ∧ current.get? key = none then none
      else ((extraFields names rule).get? key).or (current.get? key) :=
  Dict.get?_assignAll (extraFields names rule).nodup current key

theorem Extended.step (h : Extended names done c current) (rule : Combination) :
    Extended names (done ++ [rule]) c
      (if accepts names rule current then current.assignAll (extraFields names rule).entries
      else current) := by
  have same : accepts names rule current = true ↔ Agrees names c rule :=
    accepts_iff.trans (h.agrees_iff rule)
  by_cases agrees : Agrees names c rule
  · rw [if_pos (same.mpr agrees)]
    refine ⟨fun key inside => ?dimension, fun key outside plain => ?field, fun outside => ?prototype⟩
    case dimension =>
      have untouched : (extraFields names rule).get? key = none := by simp [extraFields, inside]
      rw [get?_assignAll_extraFields, untouched, Option.none_or, h.dimension key inside]
      split
      · next both => exact both.2.symm
      · rfl
    case field =>
      rw [get?_assignAll_extraFields, if_neg fun both => plain both.1,
        get?_extraFields rule outside, h.field key outside plain, lastNaming?_concat]
      cases named : rule.get? key with
      | none =>
          have absent := Dict.get?_eq_none_iff.mp named
          rw [if_neg fun both => absent both.1, Option.none_or]
      | some value =>
          have present : key ∈ rule.keys := by
            by_contra absent
            rw [Dict.get?_eq_none_iff.mpr absent] at named
            cases named
          rw [if_pos ⟨present, agrees⟩, Option.some_or, Option.bind_some, named]
    case prototype =>
      rw [get?_assignAll_extraFields, if_pos ⟨rfl, h.prototype outside⟩]
  · rw [if_neg (mt same.mp agrees)]
    refine ⟨h.dimension, fun key outside plain => ?_, h.prototype⟩
    rw [h.field key outside plain, lastNaming?_concat, if_neg fun both => agrees both.2]

/-- All rules, one after another: what they make of the combinations, and the
    rules that agree with none. -/
theorem extended_applyIncludes {cs currents : List Combination} (rules : List Combination)
    (h : List.Forall₂ (Extended names done) cs currents) :
    List.Forall₂ (Extended names (done ++ rules)) cs (applyIncludes names rules currents).1 ∧
      (applyIncludes names rules currents).2 =
        rules.filter fun rule => ∀ c ∈ cs, ¬ Agrees names c rule := by
  induction rules generalizing done currents with
  | nil =>
      rw [List.append_nil]
      exact ⟨h, rfl⟩
  | cons rule rules ih =>
      have next : List.Forall₂ (Extended names (done ++ [rule])) cs
          (extend names rule currents) := by
        rw [extend, List.forall₂_map_right_iff]
        exact h.imp fun _ _ extended => extended.step rule
      obtain ⟨extended, unmatched⟩ := ih next
      rw [List.append_assoc] at extended
      have matched : currents.any (accepts names rule) = true ↔
          ∃ c ∈ cs, Agrees names c rule := by
        clear ih next extended unmatched
        induction h with
        | nil => simp
        | cons first _ ih =>
            rw [List.any_cons, Bool.or_eq_true, ih, accepts_iff, first.agrees_iff]
            simp
      refine ⟨extended, ?_⟩
      simp only [applyIncludes, unmatched, List.filter_cons, matched]
      by_cases some : ∃ c ∈ cs, Agrees names c rule
      · rw [if_pos some, if_neg (by simpa using some)]
      · rw [if_neg some, if_pos (by simpa using some)]

end Rules

theorem get?_of_mem_candidates {dimensions : List Dimension}
    (distinct : (dimensions.map (·.name)).Nodup) {includes : List Combination} {c : Combination}
    (member : c ∈ candidates dimensions includes) {key : String}
    (outside : key ∉ dimensions.map (·.name)) : c.get? key = none := by
  have picked := holds_candidates distinct includes
  obtain ⟨i, rfl⟩ := List.get_of_mem member
  have inside : i < (candidatePicks dimensions includes).length := by
    rw [picked.length_eq]
    exact i.isLt
  have holds := picked.get inside i.isLt
  have among := List.get_mem (candidatePicks dimensions includes) ⟨i, inside⟩
  rw [Option.eq_none_iff_forall_ne_some]
  intro value found
  rw [← names_of_mem_candidatePicks among] at outside
  exact outside (List.mem_map.mpr ⟨(key, value), (holds key value).mp found, rfl⟩)

def numbered (entries : List (Combination × Bool)) : List Resolved :=
  entries.zipIdx.map fun ((matrix, synthesized), index) => ⟨index, matrix, synthesized⟩

theorem map_index_numbered (entries : List (Combination × Bool)) :
    (numbered entries).map (·.index) = List.range (numbered entries).length := by
  rw [numbered, List.map_map, List.length_map, List.length_zipIdx, List.range_eq_range']
  exact List.zipIdx_map_snd 0 entries

theorem map_entry_numbered (entries : List (Combination × Bool)) :
    (numbered entries).map (fun r => (r.matrix, r.synthesized)) = entries := by
  rw [numbered, List.map_map]
  exact List.zipIdx_map_fst 0 entries

section Resolve

variable {dimensions : List Dimension} (distinct : (dimensions.map (·.name)).Nodup)
  (excludes includes : List Combination)

theorem survivors_eq : survivors dimensions excludes includes =
    (candidates dimensions includes).filter fun c => ∀ rule ∈ excludes, ¬ Matches c rule := by
  rw [survivors]
  congr 1
  funext c
  rw [Bool.eq_iff_iff]
  simp [matchesRule_iff]

include distinct

theorem entries_resolve : ∃ final,
    List.Forall₂ (Extended (dimensions.map (·.name)) includes)
      (survivors dimensions excludes includes) final ∧
    (resolve dimensions excludes includes).map (fun r => (r.matrix, r.synthesized)) =
      final.map (·, false) ++ (includes.filter fun rule =>
        ∀ c ∈ survivors dimensions excludes includes,
          ¬ Agrees (dimensions.map (·.name)) c rule).map (·, true) := by
  have bare : ∀ c ∈ survivors dimensions excludes includes,
      Extended (dimensions.map (·.name)) [] c c := by
    intro c member
    exact .refl fun key outside =>
      get?_of_mem_candidates distinct (List.mem_of_mem_filter member) outside
  obtain ⟨extended, unmatched⟩ := extended_applyIncludes includes (List.forall₂_same.mpr bare)
  refine ⟨_, extended, ?_⟩
  rw [← unmatched]
  exact map_entry_numbered _

theorem synthesized_iff {rule : Combination} :
    (∃ r ∈ resolve dimensions excludes includes, r.matrix = rule ∧ r.synthesized = true) ↔
      rule ∈ includes ∧ ∀ c ∈ survivors dimensions excludes includes,
        ¬ Agrees (dimensions.map (·.name)) c rule := by
  obtain ⟨final, -, entries⟩ := entries_resolve distinct excludes includes
  have listed : (∃ r ∈ resolve dimensions excludes includes,
      r.matrix = rule ∧ r.synthesized = true) ↔ (rule, true) ∈
        (resolve dimensions excludes includes).map (fun r => (r.matrix, r.synthesized)) := by
    simp
  rw [listed, entries]
  simp

end Resolve

/-- **What a matrix resolves to.**  The candidates are the picks of the cross
    product in their order; those that an exclude rule matches are dropped.
    Each of the others becomes what the include rules make of it; it takes all
    of their fields exactly if no rule that agrees with it names the key of the
    prototype, which may still be a dimension.  Behind them stand, in their order
    and as they are, the rules that agree with none of them.  Whether a rule
    agrees is asked of a candidate as it was picked, so other include rules have
    no say in it: among whatever rules it stands, it becomes a combination of its
    own or does not. -/
theorem resolve_eq_extended {dimensions : List Dimension}
    (distinct : (dimensions.map (·.name)).Nodup) (excludes includes : List Combination) :
    (∃ candidates kept final : List Combination,
      List.Forall₂ Holds (candidatePicks dimensions includes) candidates ∧
      (kept = candidates.filter fun c => ∀ rule ∈ excludes, ¬ Matches c rule) ∧
      List.Forall₂ (fun c final => Extended (dimensions.map (·.name)) includes c final ∧
        (TakesAll (dimensions.map (·.name)) includes c final ↔
          Dict.prototypeKey ∈ dimensions.map (·.name) ∨
            ∀ rule ∈ includes, Dict.prototypeKey ∈ rule.keys →
              ¬ Agrees (dimensions.map (·.name)) c rule)) kept final ∧
      (resolve dimensions excludes includes).map (fun r => (r.matrix, r.synthesized)) =
        final.map (·, false) ++
          (includes.filter fun rule =>
            ∀ c ∈ kept, ¬ Agrees (dimensions.map (·.name)) c rule).map (·, true)) ∧
    (resolve dimensions excludes includes).map (·.index) =
      List.range (resolve dimensions excludes includes).length ∧
    ∀ others : List Combination, ∀ rule ∈ includes, rule ∈ others →
      ((∃ r ∈ resolve dimensions excludes includes, r.matrix = rule ∧ r.synthesized = true) ↔
        ∃ r ∈ resolve dimensions excludes others, r.matrix = rule ∧ r.synthesized = true) := by
  refine ⟨?_, map_index_numbered _, fun others rule member member' => ?_⟩
  · obtain ⟨final, extended, entries⟩ := entries_resolve distinct excludes includes
    exact ⟨candidates dimensions includes, survivors dimensions excludes includes, final,
      holds_candidates distinct includes, survivors_eq excludes includes,
      extended.imp fun _ _ h => ⟨h, h.takesAll_iff⟩, entries⟩
  · rw [synthesized_iff distinct, synthesized_iff distinct]
    have same : survivors dimensions excludes includes = survivors dimensions excludes others := by
      have some : includes.isEmpty = false := List.isEmpty_eq_false_iff_exists_mem.mpr ⟨_, member⟩
      have some' : others.isEmpty = false := List.isEmpty_eq_false_iff_exists_mem.mpr ⟨_, member'⟩
      simp only [survivors, candidates, some, some']
    rw [same]
    exact and_congr_left' (iff_of_true member member')

/-- The operating systems and versions of a small matrix. -/
def twoByTwo : List Dimension :=
  [⟨"os", [.text "linux", .text "macos"]⟩, ⟨"version", [.number 1, .number 2]⟩]

theorem resolve_eq_extended_two_by_two :
    let windows : Combination := { entries := [("os", .text "windows"), ("slow", .bool true)] }
    let linux : Combination := { entries := [("slow", .bool true), ("os", .text "linux")] }
    (twoByTwo.map (·.name)).Nodup ∧
    (resolve twoByTwo [linux] [linux, windows]).map (·.index) =
      List.range (resolve twoByTwo [linux] [linux, windows]).length ∧
    ((∃ r ∈ resolve twoByTwo [linux] [linux, windows], r.matrix = windows ∧ r.synthesized = true) ↔
      ∃ r ∈ resolve twoByTwo [linux] [windows], r.matrix = windows ∧ r.synthesized = true) := by
  intro windows linux
  have distinct : (twoByTwo.map (·.name)).Nodup := by decide
  obtain ⟨-, places, independent⟩ := resolve_eq_extended distinct [linux] [linux, windows]
  exact ⟨distinct, places, independent [windows] windows (by simp) (by simp)⟩

/-- A field under the key of the prototype is lost where the rule extends a
    combination, and kept where the rule becomes one. -/
theorem prototype_field_lost :
    let os : List Dimension := [⟨"os", [.text "a"]⟩]
    let agreeing : Combination := { entries := [("os", .text "a"), ("__proto__", .text "x")] }
    let other : Combination := { entries := [("os", .text "b"), ("__proto__", .text "x")] }
    Agrees ["os"] { entries := [("os", .text "a")] } agreeing ∧
    (resolve os [] [agreeing]).map (fun r => (r.matrix.entries, r.synthesized)) =
      [([("os", .text "a")], false)] ∧
    (resolve os [] [other]).map (fun r => (r.matrix.entries, r.synthesized)) =
      [([("os", .text "a")], false), (other.entries, true)] := by
  decide

end JobMatrix.Matrix
