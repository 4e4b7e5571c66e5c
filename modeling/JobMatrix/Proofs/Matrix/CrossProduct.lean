import Mathlib.Data.List.Forall2
import JobMatrix.Matrix.Resolve

/-! # The cross product

A combination of the cross product picks one value from every dimension.  The
picks are listed as a counter runs, the last dimension fastest.
-/

namespace JobMatrix.Matrix

/-- All picks of one value from each dimension, with the names of the
    dimensions, the last dimension varying fastest. -/
def picks : List Dimension → List (List (String × Scalar))
  | [] => [[]]
  | d :: rest => d.values.flatMap fun v => (picks rest).map ((d.name, v) :: ·)

def Holds (pick : List (String × Scalar)) (c : Combination) : Prop :=
  ∀ key value, c.get? key = some value ↔ (key, value) ∈ pick

theorem names_of_mem_picks {dimensions : List Dimension} {pick : List (String × Scalar)}
    (member : pick ∈ picks dimensions) : pick.map Prod.fst = dimensions.map (·.name) := by
  induction dimensions generalizing pick with
  | nil =>
      rw [picks, List.mem_singleton] at member
      rw [member]
      rfl
  | cons d rest ih =>
      obtain ⟨v, -, tails⟩ := List.mem_flatMap.mp member
      obtain ⟨tail, among, rfl⟩ := List.mem_map.mp tails
      rw [List.map_cons, List.map_cons, ih among]

theorem exists_of_mem_picks {dimensions : List Dimension} {pick : List (String × Scalar)}
    (among : pick ∈ picks dimensions) {entry : String × Scalar} (member : entry ∈ pick) :
    ∃ d ∈ dimensions, d.name = entry.1 ∧ entry.2 ∈ d.values := by
  induction dimensions generalizing pick with
  | nil =>
      rw [picks, List.mem_singleton] at among
      rw [among] at member
      cases member
  | cons d rest ih =>
      obtain ⟨v, declared, tails⟩ := List.mem_flatMap.mp among
      obtain ⟨tail, behind, rfl⟩ := List.mem_map.mp tails
      rcases List.mem_cons.mp member with rfl | member
      · exact ⟨d, List.mem_cons_self, rfl, declared⟩
      · obtain ⟨e, listed, found⟩ := ih behind member
        exact ⟨e, List.mem_cons_of_mem d listed, found⟩

theorem map_mem_picks {dimensions : List Dimension} {choice : Dimension → Scalar}
    (declared : ∀ d ∈ dimensions, choice d ∈ d.values) :
    (dimensions.map fun d => (d.name, choice d)) ∈ picks dimensions := by
  induction dimensions with
  | nil => exact List.mem_singleton_self []
  | cons d rest ih =>
      have behind := ih fun e member => declared e (List.mem_cons_of_mem d member)
      exact List.mem_flatMap.mpr ⟨choice d, declared d List.mem_cons_self,
        List.mem_map_of_mem behind⟩

/-- Each dimension writes its values over those of the dimensions before. -/
theorem foldl_crossProduct (dimensions : List Dimension) (combinations : List Combination) :
    dimensions.foldl (fun combinations d =>
        combinations.flatMap fun c => d.values.map fun v => c.insert d.name v) combinations =
      combinations.flatMap fun c => (picks dimensions).map c.insertAll := by
  induction dimensions generalizing combinations with
  | nil =>
      have unchanged (c : Combination) : c.insertAll [] = c := rfl
      simp [picks, unchanged]
  | cons d rest ih =>
      rw [List.foldl_cons, ih, List.flatMap_assoc]
      congr 1
      funext c
      simp only [picks, List.flatMap_map, List.map_flatMap, List.map_map]
      rfl

theorem crossProduct_eq {dimensions : List Dimension} (some : dimensions ≠ []) :
    crossProduct dimensions = (picks dimensions).map Dict.ofList := by
  rw [crossProduct, if_neg (by simpa using some), foldl_crossProduct]
  exact List.flatMap_singleton _ _

theorem holds_ofList {pick : List (String × Scalar)} (distinct : (pick.map Prod.fst).Nodup) :
    Holds pick (Dict.ofList pick) := by
  intro key value
  rw [Dict.get?_ofList distinct, Entries.get?_eq_some_iff distinct]

theorem get?_ofList_map {dimensions : List Dimension} (distinct : (dimensions.map (·.name)).Nodup)
    (choice : Dimension → Scalar) {d : Dimension} (member : d ∈ dimensions) :
    (Dict.ofList (dimensions.map fun d => (d.name, choice d))).get? d.name = some (choice d) := by
  have names : (dimensions.map fun d => (d.name, choice d)).map Prod.fst =
      dimensions.map (·.name) := by
    rw [List.map_map]
    rfl
  exact (holds_ofList (by rwa [names]) d.name (choice d)).mpr (List.mem_map_of_mem member)

/-- What the candidates are picked from: no dimensions leave one empty pick if
    there are no include rules either, and nothing to pick otherwise. -/
def candidatePicks (dimensions : List Dimension) (includes : List Combination) :
    List (List (String × Scalar)) :=
  if dimensions = [] ∧ includes ≠ [] then [] else picks dimensions

theorem names_of_mem_candidatePicks {dimensions : List Dimension} {includes : List Combination}
    {pick : List (String × Scalar)} (member : pick ∈ candidatePicks dimensions includes) :
    pick.map Prod.fst = dimensions.map (·.name) := by
  rw [candidatePicks] at member
  split at member
  · cases member
  · exact names_of_mem_picks member

theorem holds_candidates {dimensions : List Dimension}
    (distinct : (dimensions.map (·.name)).Nodup) (includes : List Combination) :
    List.Forall₂ Holds (candidatePicks dimensions includes) (candidates dimensions includes) := by
  rw [candidatePicks, candidates]
  cases dimensions with
  | nil =>
      cases includes with
      | nil => exact .cons (holds_ofList List.nodup_nil) .nil
      | cons rule rules => exact .nil
  | cons d rest =>
      rw [if_neg (by simp), if_neg (by simp), crossProduct_eq (List.cons_ne_nil d rest),
        List.forall₂_map_right_iff, List.forall₂_same]
      intro pick member
      apply holds_ofList
      rw [names_of_mem_picks member]
      exact distinct

end JobMatrix.Matrix
