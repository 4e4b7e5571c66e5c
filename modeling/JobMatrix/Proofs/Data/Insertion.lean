import Mathlib.Data.List.Induction
import JobMatrix.Dict

/-! # Keys that are written again

Of several values written to a key the last one stays, while the key keeps the
place where it was written first.  Only keys that write an index are moved
before the others.
-/

namespace JobMatrix.Entries

variable {α : Type}

theorem get?_append (key : String) (entries others : List (String × α)) :
    get? key (entries ++ others) = (get? key entries).or (get? key others) := by
  induction entries with
  | nil => rfl
  | cons entry rest ih =>
      simp only [List.cons_append, get?]
      split
      · rfl
      · exact ih

theorem get?_eq_find? (key : String) (entries : List (String × α)) :
    get? key entries = (entries.find? fun entry => entry.1 = key).map Prod.snd := by
  induction entries with
  | nil => rfl
  | cons entry rest ih =>
      by_cases same : entry.1 = key
      · simp [get?, same]
      · simp [get?, same, ih]

/-- The last value written to a key stays. -/
theorem get?_insertAll_reverse (entries new : List (String × α)) (key : String) :
    get? key (insertAll entries new) = (get? key new.reverse).or (get? key entries) := by
  induction new generalizing entries with
  | nil => rfl
  | cons entry rest ih =>
      have written : insertAll entries (entry :: rest) =
          insertAll (insert entry.1 entry.2 entries) rest := rfl
      rw [written, ih, get?_insert, List.reverse_cons, get?_append, Option.or_assoc]
      by_cases same : key = entry.1
      · simp [get?, same]
      · simp [get?, same, Ne.symm same]

theorem mem_keys_insertAll {new : List (String × α)} {key : String} :
    key ∈ (insertAll [] new).map Prod.fst ↔ key ∈ new.map Prod.fst := by
  have absent : key ∉ (insertAll [] new).map Prod.fst ↔ key ∉ new.map Prod.fst := by
    rw [← get?_eq_none_iff, get?_insertAll_reverse, get?, Option.or_none, get?_eq_none_iff,
      List.map_reverse, List.mem_reverse]
  exact not_iff_not.mp absent

/-! ### The order of keys -/

theorem exists_add_eq (key : String) (value : α) (entries : List (String × α)) :
    ∃ before after, entries = before ++ after ∧
      add key value entries = before ++ (key, value) :: after := by
  induction entries with
  | nil => exact ⟨[], [], rfl, rfl⟩
  | cons entry rest ih =>
      obtain ⟨before, after, same, added⟩ := ih
      by_cases goes : goesBefore key entry.1 = true
      · exact ⟨[], entry :: rest, rfl, by simp [add, goes]⟩
      · exact ⟨entry :: before, after, by simp [same], by simp [add, goes, added]⟩

theorem add_of_noIndex {key : String} (noIndex : indexKey? key = none) (value : α)
    (entries : List (String × α)) : add key value entries = entries ++ [(key, value)] := by
  induction entries with
  | nil => rfl
  | cons entry rest ih =>
      have behind : goesBefore key entry.1 = false := by
        rw [goesBefore, noIndex]
      simp [add, behind, ih]

theorem eraseDups_concat (keys : List String) (key : String) :
    (keys ++ [key]).eraseDups = if key ∈ keys then keys.eraseDups else keys.eraseDups ++ [key] := by
  rw [List.eraseDups_append]
  by_cases known : key ∈ keys <;> simp [List.removeAll, known, List.eraseDups_cons]

variable {test : String → Bool}

/-- A new key goes behind all keys that pass a test, unless it writes an index
    and others pass the test as well. -/
theorem filter_keys_add {key : String}
    (alone : indexKey? key ≠ none → test key = true → ∀ k, test k = true → k = key) (value : α)
    {entries : List (String × α)} (fresh : key ∉ entries.map Prod.fst) :
    ((add key value entries).map Prod.fst).filter test =
      (entries.map Prod.fst ++ [key]).filter test := by
  by_cases noIndex : indexKey? key = none
  · simp [add_of_noIndex noIndex]
  obtain ⟨before, after, rfl, added⟩ := exists_add_eq key value entries
  rw [added]
  by_cases passes : test key = true
  · have others : ∀ k ∈ (before ++ after).map Prod.fst, ¬test k = true := by
      intro k member other
      exact fresh (alone noIndex passes k other ▸ member)
    rw [List.map_append, List.forall_mem_append] at others
    simp only [List.map_append, List.map_cons, List.filter_append, List.filter_cons,
      List.filter_eq_nil_iff.mpr others.1, List.filter_eq_nil_iff.mpr others.2]
    rfl
  · simp [passes]

/-- The keys that pass a test stand in the order in which each was written first. -/
theorem filter_keys_insertAll
    (alone : ∀ key, indexKey? key ≠ none → test key = true → ∀ k, test k = true → k = key)
    (new : List (String × α)) :
    ((insertAll [] new).map Prod.fst).filter test = (new.map Prod.fst).eraseDups.filter test := by
  induction new using List.reverseRecOn with
  | nil => rfl
  | append_singleton new entry ih =>
      have written : insertAll [] (new ++ [entry]) =
          insert entry.1 entry.2 (insertAll [] new) := by
        simp [insertAll]
      rw [written, List.map_append, List.map_singleton, eraseDups_concat, insert]
      by_cases known : entry.1 ∈ new.map Prod.fst
      · rw [if_pos known, if_pos (mem_keys_insertAll.mpr known), keys_replace, ih]
      · have fresh : entry.1 ∉ (insertAll [] new).map Prod.fst := mt mem_keys_insertAll.mp known
        rw [if_neg known, if_neg fresh, filter_keys_add (alone entry.1) entry.2 fresh,
          List.filter_append, List.filter_append, ih]

end JobMatrix.Entries
