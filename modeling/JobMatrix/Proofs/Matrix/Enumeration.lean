import Mathlib.Algebra.BigOperators.Group.List.Basic
import JobMatrix.Proofs.Matrix.Resolution

/-! # The order of the cross product

A matrix without rules resolves to the combinations of its dimensions as a
counter runs through them.  The place of a combination is a number in the mixed
radix system of the counts of values, the last dimension least significant, and
each of its digits selects a value.
-/

namespace JobMatrix.Matrix

def volume (dimensions : List Dimension) : Nat :=
  (dimensions.map (·.values.length)).prod

/-- The digit of a place that selects the value of a dimension; the dimensions
    behind it are less significant. -/
def digit (d : Dimension) (after : List Dimension) (place : Nat) : Nat :=
  place / volume after % d.values.length

@[simp] theorem volume_nil : volume [] = 1 := rfl

@[simp] theorem volume_cons (d : Dimension) (rest : List Dimension) :
    volume (d :: rest) = d.values.length * volume rest := by
  rw [volume, List.map_cons, List.prod_cons]
  rfl

theorem volume_pos_of_lt {d : Dimension} {rest : List Dimension} {place : Nat}
    (inside : place < volume (d :: rest)) : 0 < volume rest := by
  rw [volume_cons] at inside
  exact Nat.pos_of_ne_zero fun empty => by simp [empty] at inside

/-! ## Digits -/

theorem digit_front {d : Dimension} {rest : List Dimension} {place : Nat}
    (inside : place < volume (d :: rest)) : digit d rest place = place / volume rest := by
  rw [volume_cons] at inside
  exact Nat.mod_eq_of_lt (Nat.div_lt_of_lt_mul (Nat.mul_comm _ _ ▸ inside))

/-- A dimension counts for less than those before it. -/
theorem volume_dvd (before : List Dimension) (d : Dimension) (after : List Dimension) :
    volume after * d.values.length ∣ volume (before ++ d :: after) := by
  induction before with
  | nil => rw [List.nil_append, volume_cons, Nat.mul_comm]
  | cons e before ih =>
      rw [List.cons_append, volume_cons]
      exact Dvd.dvd.mul_left ih e.values.length

/-- What more significant digits say has no bearing on a digit. -/
theorem digit_mod (before : List Dimension) (d : Dimension) (after : List Dimension) (place : Nat) :
    digit d after (place % volume (before ++ d :: after)) = digit d after place := by
  unfold digit
  rw [← Nat.mod_mul_right_div_self, Nat.mod_mod_of_dvd _ (volume_dvd before d after),
    Nat.mod_mul_right_div_self]

theorem eq_of_digits {dimensions : List Dimension} {i j : Nat} (left : i < volume dimensions)
    (right : j < volume dimensions)
    (same : ∀ before d after, dimensions = before ++ d :: after →
      digit d after i = digit d after j) : i = j := by
  induction dimensions generalizing i j with
  | nil => exact (Nat.lt_one_iff.mp left).trans (Nat.lt_one_iff.mp right).symm
  | cons d rest ih =>
      have quotients : i / volume rest = j / volume rest := by
        rw [← digit_front left, ← digit_front right]
        exact same [] d rest rfl
      have positive : 0 < volume rest := volume_pos_of_lt left
      have remainders : i % volume rest = j % volume rest := by
        apply ih (Nat.mod_lt i positive) (Nat.mod_lt j positive)
        rintro before e after rfl
        rw [digit_mod, digit_mod]
        exact same (d :: before) e after rfl
      rw [← Nat.div_add_mod i (volume rest), quotients, remainders, Nat.div_add_mod]

/-! ## Picks by their places -/

/-- Blocks of one length, one after another: the quotient of a place finds the
    block, the remainder the place in it. -/
theorem getElem?_flatMap_of_length {α β : Type} {f : α → List β} {size : Nat} {items : List α}
    (same : ∀ a ∈ items, (f a).length = size) (positive : 0 < size) (place : Nat) :
    (items.flatMap f)[place]? = items[place / size]?.bind fun a => (f a)[place % size]? := by
  induction items generalizing place with
  | nil => rfl
  | cons a rest ih =>
      have first : (f a).length = size := same a List.mem_cons_self
      rw [List.flatMap_cons]
      by_cases within : place < size
      · rw [List.getElem?_append_left (by rwa [first]), Nat.div_eq_of_lt within,
          Nat.mod_eq_of_lt within]
        rfl
      · have behind : size ≤ place := Nat.not_lt.mp within
        rw [List.getElem?_append_right (by rwa [first]), first,
          ih fun b member => same b (List.mem_cons_of_mem a member),
          Nat.div_eq_sub_div positive behind, ← Nat.mod_eq_sub_mod behind]
        rfl

theorem length_picks (dimensions : List Dimension) :
    (picks dimensions).length = volume dimensions := by
  induction dimensions with
  | nil => rfl
  | cons d rest ih => simp [picks, List.length_flatMap, ih]

theorem mem_of_getElem?_picks {dimensions : List Dimension} {place : Nat}
    {pick : List (String × Scalar)} (picked : (picks dimensions)[place]? = some pick)
    {before after : List Dimension} {d : Dimension} (split : dimensions = before ++ d :: after) :
    ∃ v, d.values[digit d after place]? = some v ∧ (d.name, v) ∈ pick := by
  induction dimensions generalizing place pick before with
  | nil => simp at split
  | cons e rest ih =>
      have inside : place < volume (e :: rest) := by
        rw [← length_picks]
        exact (List.getElem?_eq_some_iff.mp picked).1
      rw [picks, getElem?_flatMap_of_length (fun v _ => by rw [List.length_map, length_picks])
        (volume_pos_of_lt inside)] at picked
      obtain ⟨v, selected, tail⟩ := Option.bind_eq_some_iff.mp picked
      rw [List.getElem?_map] at tail
      obtain ⟨others, found, rfl⟩ := Option.map_eq_some_iff.mp tail
      cases before with
      | nil =>
          cases split
          exact ⟨v, by rw [digit_front inside, selected], List.mem_cons_self⟩
      | cons _ before =>
          rw [List.cons_append, List.cons.injEq] at split
          obtain ⟨-, rfl⟩ := split
          obtain ⟨w, selected, member⟩ := ih found rfl
          rw [digit_mod] at selected
          exact ⟨w, selected, List.mem_cons_of_mem _ member⟩

/-! ## Matrices without rules -/

theorem resolve_bare {dimensions : List Dimension} (some : dimensions ≠ []) :
    resolve dimensions [] [] = (picks dimensions).zipIdx.map fun (pick, index) =>
      ⟨index, Dict.ofList pick, false⟩ := by
  have candidates : candidates dimensions [] = (picks dimensions).map Dict.ofList := by
    rw [Matrix.candidates, if_neg (by simpa using some), crossProduct_eq some]
  simp [resolve, applyIncludes, survivors, candidates, List.zipIdx_map]

theorem getElem?_resolve_bare {dimensions : List Dimension} (some : dimensions ≠ [])
    {place : Nat} {pick : List (String × Scalar)}
    (picked : (picks dimensions)[place]? = .some pick) :
    (resolve dimensions [] [])[place]? = .some ⟨place, Dict.ofList pick, false⟩ := by
  simp [resolve_bare some, picked]

theorem length_resolve_bare {dimensions : List Dimension} (some : dimensions ≠ []) :
    (resolve dimensions [] []).length = volume dimensions := by
  rw [resolve_bare some, List.length_map, List.length_zipIdx, length_picks]

def Chosen (dimensions : List Dimension) (choice : String → Scalar) (c : Combination) : Prop :=
  ∀ d ∈ dimensions, ∃ v, c.get? d.name = some v ∧ v.isSame (choice d.name) = true

theorem chosen_ofList {dimensions : List Dimension} (distinct : (dimensions.map (·.name)).Nodup)
    (choice : String → Scalar) :
    Chosen dimensions choice (Dict.ofList (dimensions.map fun d => (d.name, choice d.name))) :=
  fun d member => ⟨choice d.name, get?_ofList_map distinct (choice ·.name) member,
    beq_self_eq_true _⟩

theorem eq_of_isSame {values : List Scalar} (apart : values.Pairwise fun v w => v.isSame w = false)
    {i j : Nat} {v w : Scalar} (left : values[i]? = some v) (right : values[j]? = some w)
    (same : v.isSame w = true) : i = j := by
  have nodup : (values.map Scalar.plainZero).Nodup := by
    rw [List.Nodup, List.pairwise_map]
    exact apart.imp fun differ => by simpa [Scalar.isSame] using differ
  have zeros : v.plainZero = w.plainZero := by simpa [Scalar.isSame] using same
  have inside : i < (values.map Scalar.plainZero).length := by
    rw [List.length_map]
    exact (List.getElem?_eq_some_iff.mp left).1
  exact (List.getElem?_inj inside nodup).mp (by simp [left, right, zeros])

/-- A resolved combination is the one at a place: it has the value that each
    digit of the place selects, and nothing else. -/
structure StandsAt (dimensions : List Dimension) (place : Nat) (r : Resolved) : Prop where
  index : r.index = place
  synthesized : r.synthesized = false
  value : ∀ before d after, dimensions = before ++ d :: after →
    ∃ v, d.values[digit d after place]? = some v ∧ r.matrix.get? d.name = some v
  bare : ∀ key ∉ dimensions.map (·.name), r.matrix.get? key = none

theorem standsAt_of_picked {dimensions : List Dimension}
    (distinct : (dimensions.map (·.name)).Nodup) {place : Nat} {pick : List (String × Scalar)}
    (picked : (picks dimensions)[place]? = .some pick) :
    StandsAt dimensions place ⟨place, Dict.ofList pick, false⟩ := by
  have names := names_of_mem_picks (List.mem_of_getElem? picked)
  have holds : Holds pick (Dict.ofList pick) := holds_ofList (by rwa [names])
  refine ⟨rfl, rfl, fun before d after split => ?_, fun key outside => ?_⟩
  · obtain ⟨v, selected, member⟩ := mem_of_getElem?_picks picked split
    exact ⟨v, selected, (holds d.name v).mpr member⟩
  · rw [Option.eq_none_iff_forall_ne_some]
    intro v found
    rw [← names] at outside
    exact outside (List.mem_map.mpr ⟨(key, v), (holds key v).mp found, rfl⟩)

theorem standsAt_of_getElem? {dimensions : List Dimension} (some : dimensions ≠ [])
    (distinct : (dimensions.map (·.name)).Nodup) {place : Nat} {r : Resolved}
    (found : (resolve dimensions [] [])[place]? = .some r) :
    place < volume dimensions ∧ StandsAt dimensions place r := by
  have inside : place < volume dimensions := by
    rw [← length_resolve_bare some]
    exact (List.getElem?_eq_some_iff.mp found).1
  obtain ⟨pick, picked⟩ : ∃ pick, (picks dimensions)[place]? = .some pick :=
    ⟨_, List.getElem?_eq_getElem (by rwa [length_picks])⟩
  rw [getElem?_resolve_bare some picked] at found
  cases found
  exact ⟨inside, standsAt_of_picked distinct picked⟩

/-- Two places with the values of one choice have the same digits. -/
theorem eq_of_chosen {dimensions : List Dimension}
    (apart : ∀ d ∈ dimensions, d.values.Pairwise fun v w => v.isSame w = false)
    {choice : String → Scalar} {i j : Nat} {r r' : Resolved} (left : i < volume dimensions)
    (right : j < volume dimensions) (first : StandsAt dimensions i r)
    (second : StandsAt dimensions j r') (chosen : Chosen dimensions choice r.matrix)
    (chosen' : Chosen dimensions choice r'.matrix) : i = j := by
  refine eq_of_digits left right fun before d after split => ?_
  have member : d ∈ dimensions := by rw [split]; simp
  obtain ⟨v, selected, value⟩ := first.value before d after split
  obtain ⟨w, selected', value'⟩ := second.value before d after split
  obtain ⟨v', found, same⟩ := chosen d member
  obtain ⟨w', found', same'⟩ := chosen' d member
  obtain rfl : v = v' := Option.some.inj (value.symm.trans found)
  obtain rfl : w = w' := Option.some.inj (value'.symm.trans found')
  refine eq_of_isSame (apart d member) selected selected' ?_
  simp only [Scalar.isSame, beq_iff_eq] at same same' ⊢
  rw [same, same']

/-- **The order of the cross product.**  A matrix of some dimensions and no
    rules resolves to as many combinations as the product of the counts of
    values.  The one at a place has of each dimension the value that the digit
    of the place selects, in the mixed radix system of these counts with the
    last dimension least significant.  So every choice of declared values
    stands at exactly one place. -/
theorem resolve_enumerates {dimensions : List Dimension} (some : dimensions ≠ [])
    (distinct : (dimensions.map (·.name)).Nodup)
    (apart : ∀ d ∈ dimensions, d.values.Pairwise fun v w => v.isSame w = false) :
    (resolve dimensions [] []).length = volume dimensions ∧
    (∀ place < volume dimensions, ∃ r, (resolve dimensions [] [])[place]? = .some r ∧
      StandsAt dimensions place r) ∧
    ∀ choice : String → Scalar, (∀ d ∈ dimensions, choice d.name ∈ d.values) →
      ∃! place : Nat, ∃ r : Resolved, (resolve dimensions [] [])[place]? = .some r ∧
        Chosen dimensions choice r.matrix := by
  refine ⟨length_resolve_bare some, fun place inside => ?_, fun choice declared => ?_⟩
  · have picked := List.getElem?_eq_getElem (l := picks dimensions) (by rwa [length_picks])
    exact ⟨_, getElem?_resolve_bare some picked, standsAt_of_picked distinct picked⟩
  · obtain ⟨place, picked⟩ := List.getElem?_of_mem (map_mem_picks declared)
    refine ⟨place, ⟨_, getElem?_resolve_bare some picked, ?_⟩, ?_⟩
    · exact chosen_ofList distinct choice
    · rintro other ⟨r, found, chosen⟩
      obtain ⟨inside, stands⟩ := standsAt_of_getElem? some distinct found
      have within : place < volume dimensions := by
        rw [← length_picks]
        exact (List.getElem?_eq_some_iff.mp picked).1
      exact eq_of_chosen apart inside within stands (standsAt_of_picked distinct picked)
        chosen (chosen_ofList distinct choice)

def platformsByVersion : List Dimension :=
  [⟨"os", [.text "linux", .text "macos", .text "windows"]⟩, ⟨"version", [.number 1, .text "1"]⟩]

theorem resolve_enumerates_platforms :
    let dimensions := platformsByVersion
    dimensions ≠ [] ∧ (dimensions.map (·.name)).Nodup ∧
    (∀ d ∈ dimensions, d.values.Pairwise fun v w => v.isSame w = false) ∧
    (resolve dimensions [] []).length = 6 ∧
    (∃ r, (resolve dimensions [] [])[3]? = some r ∧ StandsAt dimensions 3 r) ∧
    ∃! place : Nat, ∃ r : Resolved, (resolve dimensions [] [])[place]? = some r ∧
      Chosen dimensions (fun key => .text (if key = "os" then "windows" else "1")) r.matrix := by
  intro dimensions
  have nonempty : dimensions ≠ [] := nofun
  have distinct : (dimensions.map (·.name)).Nodup := by decide
  have apart : ∀ d ∈ dimensions, d.values.Pairwise fun v w => v.isSame w = false := by decide
  obtain ⟨length, places, choices⟩ := resolve_enumerates nonempty distinct apart
  exact ⟨nonempty, distinct, apart, length, places 3 (by decide), choices _ (by decide)⟩

end JobMatrix.Matrix
