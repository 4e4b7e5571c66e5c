import JobMatrix.Proofs.Success
import JobMatrix.Yaml.Document

/-! # Keys of plain data

A map of plain data lists its entries, and no key stands in it twice.  The data
of a document is built so, whatever the document says (`Yaml.keyed_of_read`).
This is the one fact about reading documents that the laws of workflows use.
-/

namespace JobMatrix

/-- Data in which no map has a key twice. -/
inductive Data.Keyed : Data → Prop
  | absent : Keyed .absent
  | null : Keyed .null
  | bool (value : Bool) : Keyed (.bool value)
  | number (value : Number) : Keyed (.number value)
  | text (value : String) : Keyed (.text value)
  | list {items : List Data} (each : ∀ item ∈ items, Keyed item) : Keyed (.list items)
  | map {entries : List (String × Data)} (nodup : (entries.map Prod.fst).Nodup)
      (each : ∀ entry ∈ entries, Keyed entry.2) : Keyed (.map entries)

namespace Data

theorem Keyed.item {items : List Data} (h : Keyed (.list items)) {item : Data}
    (member : item ∈ items) : item.Keyed := by
  cases h with
  | list each => exact each item member

theorem Keyed.nodup {entries : List (String × Data)} (h : Keyed (.map entries)) :
    (entries.map Prod.fst).Nodup := by
  cases h with
  | map nodup => exact nodup

theorem Keyed.entry {entries : List (String × Data)} (h : Keyed (.map entries))
    {entry : String × Data} (member : entry ∈ entries) : entry.2.Keyed := by
  cases h with
  | map nodup each => exact each entry member

theorem Keyed.getD {d : Data} (h : d.Keyed) (key : String) : (d.getD key).Keyed := by
  cases d with
  | absent | null | bool | number | text | list => exact .absent
  | map entries =>
      rw [Data.getD, get?]
      cases found : Entries.get? key entries with
      | none => exact .absent
      | some value => exact h.entry (Entries.mem_of_get? found)

theorem keyed_ofEntries {entries : List (String × Data)}
    (each : ∀ entry ∈ entries, entry.2.Keyed) : (ofEntries entries).Keyed := by
  refine .map (Entries.nodup_insertAll entries List.nodup_nil) ?_
  intro entry member
  rcases Entries.mem_of_mem_insertAll member with new | old
  · exact each entry new
  · cases old

end Data

namespace Yaml

theorem keyed_coreValue (text : String) : (coreValue text).Keyed := by
  unfold coreValue
  split
  · exact .null
  · split
    · exact .bool _
    · split
      · exact .number _
      · exact .text text

theorem keyed_scalarValue (style : Style) (tag : Option String) (text : String) :
    (scalarValue style tag text).Keyed := by
  unfold scalarValue
  split
  · exact keyed_coreValue text
  · exact .text text
  · split
    · exact .null
    · exact .text text
  · cases bool? text with
    | none => exact .text text
    | some value => exact .bool value
  · cases integer? text.toList with
    | none => exact .text text
    | some value => exact .number value
  · cases real? text.toList with
    | none => exact .text text
    | some value => exact .number value
  · exact .text text

namespace Node

def KeyedAnchors (anchors : Anchors) : Prop :=
  ∀ entry ∈ anchors, entry.2.Keyed

mutual

theorem keyed_toData {anchors anchors' : Anchors} {node : Node} {value : Data}
    (h : toData anchors node = .ok (value, anchors')) (known : KeyedAnchors anchors) :
    value.Keyed ∧ KeyedAnchors anchors' := by
  cases node with
  | scalar style tag text =>
      rw [toData] at h
      cases h
      exact ⟨keyed_scalarValue style tag text, known⟩
  | again name =>
      rw [toData] at h
      split at h
      · next found =>
          cases h
          obtain ⟨before, after, rfl, -⟩ := List.lookup_eq_some_iff.mp found
          exact ⟨known (name, value) (List.mem_append_right before List.mem_cons_self), known⟩
      · cases h
  | list items =>
      rw [toData] at h
      obtain ⟨⟨values, after⟩, read, h⟩ := exists_of_bind_eq_ok h
      cases h
      obtain ⟨each, known'⟩ := keyed_itemsData read known
      exact ⟨.list each, known'⟩
  | map entries =>
      rw [toData] at h
      obtain ⟨⟨values, after⟩, read, h⟩ := exists_of_bind_eq_ok h
      cases h
      obtain ⟨each, known'⟩ := keyed_entriesData read known
      exact ⟨Data.keyed_ofEntries each, known'⟩
  | anchored name node =>
      rw [toData] at h
      obtain ⟨⟨value', after⟩, read, h⟩ := exists_of_bind_eq_ok h
      cases h
      obtain ⟨keyed, known'⟩ := keyed_toData read known
      refine ⟨keyed, ?_⟩
      intro entry member
      rcases List.mem_cons.mp member with rfl | member
      · exact keyed
      · exact known' entry member

theorem keyed_itemsData {anchors anchors' : Anchors} {items : List Node} {values : List Data}
    (h : itemsData anchors items = .ok (values, anchors')) (known : KeyedAnchors anchors) :
    (∀ value ∈ values, value.Keyed) ∧ KeyedAnchors anchors' := by
  cases items with
  | nil =>
      rw [itemsData] at h
      cases h
      exact ⟨nofun, known⟩
  | cons item rest =>
      rw [itemsData] at h
      obtain ⟨⟨value, after⟩, first, h⟩ := exists_of_bind_eq_ok h
      obtain ⟨⟨others, last⟩, more, h⟩ := exists_of_bind_eq_ok h
      cases h
      obtain ⟨keyed, known⟩ := keyed_toData first known
      obtain ⟨each, known⟩ := keyed_itemsData more known
      exact ⟨List.forall_mem_cons.mpr ⟨keyed, each⟩, known⟩

theorem keyed_entriesData {anchors anchors' : Anchors} {entries : List (Node × Node)}
    {values : List (String × Data)} (h : entriesData anchors entries = .ok (values, anchors'))
    (known : KeyedAnchors anchors) :
    (∀ entry ∈ values, entry.2.Keyed) ∧ KeyedAnchors anchors' := by
  cases entries with
  | nil =>
      rw [entriesData] at h
      cases h
      exact ⟨nofun, known⟩
  | cons entry rest =>
      obtain ⟨key, value⟩ := entry
      rw [entriesData] at h
      obtain ⟨⟨name, afterKey⟩, readKey, h⟩ := exists_of_bind_eq_ok h
      obtain ⟨⟨data, after⟩, readValue, h⟩ := exists_of_bind_eq_ok h
      obtain ⟨⟨others, last⟩, more, h⟩ := exists_of_bind_eq_ok h
      cases h
      obtain ⟨-, known⟩ := keyed_toData readKey known
      obtain ⟨keyed, known⟩ := keyed_toData readValue known
      obtain ⟨each, known⟩ := keyed_entriesData more known
      exact ⟨List.forall_mem_cons.mpr ⟨keyed, each⟩, known⟩

end

end Node

theorem keyed_of_read {text : String} {d : Data} (h : read text = .ok d) : d.Keyed := by
  unfold read at h
  split at h
  · cases h
  · split at h
    · next written =>
        cases h
        exact (Node.keyed_toData written nofun).1
    · cases h

end Yaml

end JobMatrix
