/-! # Ordered dictionaries

A dictionary keeps its entries in an order that answers can show: keys that
write a list index come first, in numeric order, and all other keys follow in
the order of their first insertion.  Writing an existing key again keeps its
place.  Every key occurs once.

A dictionary has a prototype as well.  One key of every dictionary, unless it
is an entry already, stands for that prototype: assigning it adds no entry
(`Dict.assign`), while building a dictionary from entries keeps it
(`Dict.insert`).  Reading a key that is no entry finds what every dictionary
inherits (`Dict.read?`).
-/

namespace JobMatrix

/-- The index that a key writes: a decimal numeral without leading zeros, up
    to 4294967294. -/
def indexKey? (key : String) : Option Nat :=
  let digits := key.toList
  if digits.isEmpty || !digits.all Char.isDigit || (digits.length > 1 && digits.head? == some '0')
  then none
  else
    let value := digits.foldl (fun n c => n * 10 + (c.toNat - 0x30)) 0
    if value ≤ 4294967294 then some value else none

def goesBefore (new existing : String) : Bool :=
  match indexKey? new, indexKey? existing with
  | none, _ => false
  | some _, none => true
  | some m, some n => decide (m < n)

namespace Entries

variable {α : Type}

def get? (key : String) : List (String × α) → Option α
  | [] => none
  | (k, v) :: rest => if k = key then some v else get? key rest

def replace (key : String) (value : α) (entries : List (String × α)) : List (String × α) :=
  entries.map fun entry => if entry.1 = key then (key, value) else entry

def add (key : String) (value : α) : List (String × α) → List (String × α)
  | [] => [(key, value)]
  | entry :: rest =>
      if goesBefore key entry.1 then (key, value) :: entry :: rest
      else entry :: add key value rest

def insert (key : String) (value : α) (entries : List (String × α)) : List (String × α) :=
  if key ∈ entries.map Prod.fst then replace key value entries else add key value entries

def insertAll (entries new : List (String × α)) : List (String × α) :=
  new.foldl (fun acc entry => insert entry.1 entry.2 acc) entries

theorem keys_replace (key : String) (value : α) (entries : List (String × α)) :
    (replace key value entries).map Prod.fst = entries.map Prod.fst := by
  induction entries with
  | nil => rfl
  | cons entry rest ih =>
      simp only [replace, List.map_cons, List.cons.injEq] at *
      refine ⟨?_, ih⟩
      split
      · next h => exact h.symm
      · rfl

theorem mem_keys_add (key : String) (value : α) (entries : List (String × α)) (k : String) :
    k ∈ (add key value entries).map Prod.fst ↔ k = key ∨ k ∈ entries.map Prod.fst := by
  induction entries with
  | nil => simp [add]
  | cons entry rest ih =>
      unfold add
      split
      · simp
      · simp only [List.map_cons, List.mem_cons, ih]
        exact or_left_comm

theorem add_perm (key : String) (value : α) (entries : List (String × α)) :
    (add key value entries).Perm ((key, value) :: entries) := by
  induction entries with
  | nil => rfl
  | cons entry rest ih =>
      unfold add
      split
      · rfl
      · exact (ih.cons entry).trans (.swap (key, value) entry rest)

theorem nodup_add {key : String} (value : α) {entries : List (String × α)}
    (fresh : key ∉ entries.map Prod.fst) (nodup : (entries.map Prod.fst).Nodup) :
    ((add key value entries).map Prod.fst).Nodup := by
  induction entries with
  | nil => simp [add]
  | cons entry rest ih =>
      simp only [List.map_cons, List.mem_cons, not_or, List.nodup_cons] at fresh nodup
      unfold add
      split
      · simp [fresh, nodup]
      · simp only [List.map_cons, List.nodup_cons, mem_keys_add, not_or]
        exact ⟨⟨Ne.symm fresh.1, nodup.1⟩, ih fresh.2 nodup.2⟩

theorem nodup_insert (key : String) (value : α) {entries : List (String × α)}
    (nodup : (entries.map Prod.fst).Nodup) :
    ((insert key value entries).map Prod.fst).Nodup := by
  unfold insert
  split
  · rw [keys_replace]
    exact nodup
  · next h => exact nodup_add value h nodup

theorem nodup_insertAll (new : List (String × α)) {entries : List (String × α)}
    (nodup : (entries.map Prod.fst).Nodup) :
    ((insertAll entries new).map Prod.fst).Nodup := by
  induction new generalizing entries with
  | nil => exact nodup
  | cons entry rest ih => exact ih (nodup_insert entry.1 entry.2 nodup)

theorem get?_replace (key : String) (value : α) (entries : List (String × α)) (k : String) :
    get? k (replace key value entries) =
      if k = key ∧ key ∈ entries.map Prod.fst then some value else get? k entries := by
  induction entries with
  | nil => simp [replace, get?]
  | cons entry rest ih =>
      obtain ⟨ek, ev⟩ := entry
      simp only [replace, List.map_cons] at *
      by_cases he : ek = key
      · subst he
        by_cases hk : k = ek
        · simp [get?, hk]
        · simp [get?, hk, Ne.symm hk, ih]
      · by_cases hk : k = key
        · subst hk
          simp only [he, if_false, get?, ih, List.mem_cons, Ne.symm he, false_or]
        · by_cases hek : ek = k
          · simp [get?, hek, hk]
          · simp [get?, he, hek, ih, hk]

theorem get?_add {key : String} (value : α) {entries : List (String × α)}
    (fresh : key ∉ entries.map Prod.fst) (k : String) :
    get? k (add key value entries) = if k = key then some value else get? k entries := by
  induction entries with
  | nil => simp [add, get?, eq_comm]
  | cons entry rest ih =>
      obtain ⟨ek, ev⟩ := entry
      simp only [List.map_cons, List.mem_cons, not_or] at fresh
      unfold add
      split
      · simp [get?, eq_comm]
      · by_cases hk : k = key
        · subst hk
          simp [get?, Ne.symm fresh.1, ih fresh.2]
        · by_cases hek : ek = k <;> simp [get?, hek, ih fresh.2, hk]

/-- Reading after writing one key. -/
theorem get?_insert (key : String) (value : α) (entries : List (String × α)) (k : String) :
    get? k (insert key value entries) = if k = key then some value else get? k entries := by
  unfold insert
  split
  · next h => simp [get?_replace, h]
  · next h => exact get?_add value h k

theorem get?_eq_none_iff {key : String} {entries : List (String × α)} :
    get? key entries = none ↔ key ∉ entries.map Prod.fst := by
  induction entries with
  | nil => simp [get?]
  | cons entry rest ih =>
      by_cases h : entry.1 = key
      · simp [get?, h]
      · simp [get?, h, ih, Ne.symm h]

theorem get?_eq_some_iff {entries : List (String × α)} (nodup : (entries.map Prod.fst).Nodup)
    {key : String} {value : α} : get? key entries = some value ↔ (key, value) ∈ entries := by
  induction entries with
  | nil => simp [get?]
  | cons entry rest ih =>
      obtain ⟨k, v⟩ := entry
      rw [List.map_cons, List.nodup_cons] at nodup
      by_cases h : k = key
      · subst h
        -- The key does not occur again, so no later entry has the value.
        have absent : (k, value) ∉ rest := fun member =>
          nodup.1 (List.mem_map.mpr ⟨(k, value), member, rfl⟩)
        simp [get?, absent, eq_comm]
      · simp [get?, h, Ne.symm h, ih nodup.2]

theorem mem_of_get? {entries : List (String × α)} {key : String} {value : α}
    (h : get? key entries = some value) : (key, value) ∈ entries := by
  induction entries with
  | nil => cases h
  | cons entry rest ih =>
      obtain ⟨k, v⟩ := entry
      by_cases same : k = key
      · subst same
        rw [get?, if_pos rfl] at h
        cases h
        exact List.mem_cons_self
      · rw [get?, if_neg same] at h
        exact List.mem_cons_of_mem _ (ih h)

/-- What is written stands beside what was there before. -/
theorem mem_of_mem_insert {key : String} {value : α} {entries : List (String × α)}
    {entry : String × α} (h : entry ∈ insert key value entries) :
    entry = (key, value) ∨ entry ∈ entries := by
  have added : ∀ old : List (String × α), entry ∈ add key value old →
      entry = (key, value) ∨ entry ∈ old := by
    intro old member
    induction old with
    | nil => exact .inl (List.mem_singleton.mp member)
    | cons first rest ih =>
        unfold add at member
        split at member
        · exact List.mem_cons.mp member
        · rcases List.mem_cons.mp member with rfl | member
          · exact .inr List.mem_cons_self
          · exact (ih member).imp_right (List.mem_cons_of_mem first)
  unfold insert at h
  split at h
  · obtain ⟨old, member, same⟩ := List.mem_map.mp h
    split at same
    · exact .inl same.symm
    · exact .inr (same ▸ member)
  · exact added entries h

theorem mem_of_mem_insertAll {new entries : List (String × α)} {entry : String × α}
    (h : entry ∈ insertAll entries new) : entry ∈ new ∨ entry ∈ entries := by
  induction new generalizing entries with
  | nil => exact .inr h
  | cons first rest ih =>
      rcases ih h with member | member
      · exact .inl (List.mem_cons_of_mem first member)
      · rcases mem_of_mem_insert member with rfl | member
        · exact .inl List.mem_cons_self
        · exact .inr member

theorem get?_insertAll {new : List (String × α)} (nodup : (new.map Prod.fst).Nodup)
    (entries : List (String × α)) (k : String) :
    get? k (insertAll entries new) = (get? k new).or (get? k entries) := by
  induction new generalizing entries with
  | nil => rfl
  | cons entry rest ih =>
      rw [List.map_cons, List.nodup_cons] at nodup
      have written : insertAll entries (entry :: rest) =
          insertAll (insert entry.1 entry.2 entries) rest := rfl
      rw [written, ih nodup.2, get?_insert]
      by_cases h : entry.1 = k
      · subst h
        simp [get?, get?_eq_none_iff.mpr nodup.1]
      · simp [get?, h, Ne.symm h]

theorem get?_filter (test : String → Bool) (entries : List (String × α)) (k : String) :
    get? k (entries.filter fun entry => test entry.1) =
      if test k then get? k entries else none := by
  induction entries with
  | nil => simp [get?]
  | cons entry rest ih =>
      by_cases passes : test entry.1 <;> by_cases h : entry.1 = k <;>
        simp_all [get?]

/-! ### Entries with their values replaced -/

section Map

variable {β : Type} (f : α → β)

theorem get?_map (key : String) (entries : List (String × α)) :
    get? key (entries.map (Prod.map id f)) = (get? key entries).map f := by
  induction entries with
  | nil => rfl
  | cons entry rest ih =>
      simp only [List.map_cons, Prod.map, id_eq, get?]
      split
      · rfl
      · exact ih

theorem add_map (key : String) (value : α) (entries : List (String × α)) :
    add key (f value) (entries.map (Prod.map id f)) =
      (add key value entries).map (Prod.map id f) := by
  induction entries with
  | nil => rfl
  | cons entry rest ih =>
      simp only [List.map_cons, add, Prod.map_fst, id_eq]
      split
      · rfl
      · rw [List.map_cons, ih]

theorem replace_map (key : String) (value : α) (entries : List (String × α)) :
    replace key (f value) (entries.map (Prod.map id f)) =
      (replace key value entries).map (Prod.map id f) := by
  simp only [replace, List.map_map]
  apply List.map_congr_left
  intro entry _
  simp only [Function.comp_apply, Prod.map_fst, id_eq]
  split <;> rfl

theorem insertAll_map (entries new : List (String × α)) :
    insertAll (entries.map (Prod.map id f)) (new.map (Prod.map id f)) =
      (insertAll entries new).map (Prod.map id f) := by
  induction new generalizing entries with
  | nil => rfl
  | cons entry rest ih =>
      have keys : (entries.map (Prod.map id f)).map Prod.fst = entries.map Prod.fst := by
        simp [Function.comp_def]
      have first : insert entry.1 (f entry.2) (entries.map (Prod.map id f)) =
          (insert entry.1 entry.2 entries).map (Prod.map id f) := by
        simp only [insert, keys]
        split
        · exact replace_map f entry.1 entry.2 entries
        · exact add_map f entry.1 entry.2 entries
      have step : insertAll (entries.map (Prod.map id f)) ((entry :: rest).map (Prod.map id f)) =
          insertAll (insert entry.1 (f entry.2) (entries.map (Prod.map id f)))
            (rest.map (Prod.map id f)) := rfl
      rw [step, first]
      exact ih _

end Map

end Entries

/-- A dictionary with text keys. -/
structure Dict (α : Type) where
  entries : List (String × α)
  nodup : (entries.map Prod.fst).Nodup := by decide
  deriving Repr, DecidableEq

namespace Dict

variable {α β : Type}

def empty : Dict α := ⟨[], List.nodup_nil⟩

instance : Inhabited (Dict α) := ⟨empty⟩

/-- Writes a key: in place if it exists, else at its place. -/
def insert (d : Dict α) (key : String) (value : α) : Dict α :=
  ⟨Entries.insert key value d.entries, Entries.nodup_insert key value d.nodup⟩

/-- Writes entries one after another. -/
def insertAll (d : Dict α) (new : List (String × α)) : Dict α :=
  ⟨Entries.insertAll d.entries new, Entries.nodup_insertAll new d.nodup⟩

def ofList (entries : List (String × α)) : Dict α :=
  empty.insertAll entries

/-- The entries of one dictionary written over those of another. -/
def merge (d newer : Dict α) : Dict α :=
  d.insertAll newer.entries

def get? (d : Dict α) (key : String) : Option α :=
  Entries.get? key d.entries

def keys (d : Dict α) : List String :=
  d.entries.map Prod.fst

def values (d : Dict α) : List α :=
  d.entries.map Prod.snd

def contains (d : Dict α) (key : String) : Bool :=
  (d.get? key).isSome

def isEmpty (d : Dict α) : Bool :=
  d.entries.isEmpty

def filterKeys (d : Dict α) (test : String → Bool) : Dict α :=
  ⟨d.entries.filter fun entry => test entry.1,
    (List.filter_sublist.map Prod.fst).nodup d.nodup⟩

def prototypeKey : String := "__proto__"

/-- Assigns a key.  Unless it is an entry, the key of the prototype names
    nothing that a dictionary holds: no entry comes of assigning it. -/
def assign (d : Dict α) (key : String) (value : α) : Dict α :=
  if key = prototypeKey ∧ ¬ d.contains key then d else d.insert key value

def assignAll (d : Dict α) (new : List (String × α)) : Dict α :=
  new.foldl (fun acc entry => acc.assign entry.1 entry.2) d

/-- What reading a key finds: the value of an entry, or a member that every
    dictionary inherits. -/
inductive Member (α : Type) where
  | own (value : α)
  | inherited (name : String)
  deriving Repr, DecidableEq

def inheritedNames : List String :=
  ["constructor", "__defineGetter__", "__defineSetter__", "hasOwnProperty", "__lookupGetter__",
    "__lookupSetter__", "isPrototypeOf", "propertyIsEnumerable", "toString", "valueOf",
    prototypeKey, "toLocaleString"]

def read? (d : Dict α) (key : String) : Option (Member α) :=
  match d.get? key with
  | some value => some (.own value)
  | none => if key ∈ inheritedNames then some (.inherited key) else none

@[simp] theorem get?_empty (key : String) : (empty : Dict α).get? key = none := rfl

@[simp] theorem get?_insert (d : Dict α) (key : String) (value : α) (k : String) :
    (d.insert key value).get? k = if k = key then some value else d.get? k :=
  Entries.get?_insert key value d.entries k

@[simp] theorem contains_insert (d : Dict α) (key : String) (value : α) (k : String) :
    (d.insert key value).contains k = (k == key || d.contains k) := by
  by_cases same : k = key <;> simp [contains, same]

theorem insert_perm {d : Dict α} {key : String} (value : α) (fresh : key ∉ d.keys) :
    (d.insert key value).entries.Perm ((key, value) :: d.entries) := by
  have added : (d.insert key value).entries = Entries.add key value d.entries := if_neg fresh
  rw [added]
  exact Entries.add_perm key value d.entries

theorem get?_eq_some_iff {d : Dict α} {key : String} {value : α} :
    d.get? key = some value ↔ (key, value) ∈ d.entries :=
  Entries.get?_eq_some_iff d.nodup

theorem get?_eq_none_iff {d : Dict α} {key : String} : d.get? key = none ↔ key ∉ d.keys :=
  Entries.get?_eq_none_iff

theorem get?_ofList {entries : List (String × α)} (nodup : (entries.map Prod.fst).Nodup)
    (key : String) : (ofList entries).get? key = Entries.get? key entries :=
  (Entries.get?_insertAll nodup [] key).trans (Option.or_none)

@[simp] theorem get?_merge (d newer : Dict α) (key : String) :
    (d.merge newer).get? key = (newer.get? key).or (d.get? key) :=
  Entries.get?_insertAll newer.nodup d.entries key

@[simp] theorem get?_filterKeys (d : Dict α) (test : String → Bool) (key : String) :
    (d.filterKeys test).get? key = if test key then d.get? key else none :=
  Entries.get?_filter test d.entries key

theorem read?_of_get? {d : Dict α} {key : String} {value : α} (found : d.get? key = some value) :
    d.read? key = some (.own value) := by
  rw [read?, found]

theorem read?_of_absent {d : Dict α} {key : String} (absent : d.get? key = none) :
    d.read? key = if key ∈ inheritedNames then some (.inherited key) else none := by
  rw [read?, absent]

/-! ### Assigning keys -/

theorem assign_of_ne {key : String} (d : Dict α) (value : α) (plain : key ≠ prototypeKey) :
    d.assign key value = d.insert key value :=
  if_neg fun both => plain both.1

theorem assign_prototypeKey {d : Dict α} (value : α) (absent : d.contains prototypeKey = false) :
    d.assign prototypeKey value = d :=
  if_pos ⟨rfl, by simp [absent]⟩

theorem assign_of_contains {d : Dict α} (present : d.contains prototypeKey = true) (key : String)
    (value : α) : d.assign key value = d.insert key value := by
  by_cases same : key = prototypeKey
  · subst same
    exact if_neg fun both => both.2 present
  · exact assign_of_ne d value same

theorem assignAll_cons (d : Dict α) (entry : String × α) (rest : List (String × α)) :
    d.assignAll (entry :: rest) = (d.assign entry.1 entry.2).assignAll rest := rfl

/-- Assigning a new key adds its entry, unless it is the key of the prototype. -/
theorem assign_perm {d : Dict α} {key : String} (value : α) (fresh : key ∉ d.keys) :
    (d.assign key value).entries.Perm
      ([(key, value)].filter (fun entry => entry.1 ≠ prototypeKey) ++ d.entries) := by
  by_cases same : key = prototypeKey
  · subst same
    have absent : d.contains prototypeKey = false := by
      simp [contains, get?_eq_none_iff.mpr fresh]
    rw [assign_prototypeKey value absent]
    simp
  · rw [assign_of_ne d value same]
    simpa [same] using insert_perm value fresh

theorem assignAll_eq_insertAll {d : Dict α} (absent : d.contains prototypeKey = false)
    (new : List (String × α)) :
    d.assignAll new = d.insertAll (new.filter fun entry => entry.1 ≠ prototypeKey) := by
  induction new generalizing d with
  | nil => rfl
  | cons entry rest ih =>
      obtain ⟨key, value⟩ := entry
      by_cases same : key = prototypeKey
      · subst same
        rw [assignAll_cons, assign_prototypeKey value absent, ih absent]
        simp
      · have absent' : (d.insert key value).contains prototypeKey = false := by
          simp [absent, Ne.symm same]
        rw [assignAll_cons, assign_of_ne d value same, ih absent']
        simp [same, insertAll, Entries.insertAll, insert]

theorem assignAll_of_contains {d : Dict α} (present : d.contains prototypeKey = true)
    (new : List (String × α)) : d.assignAll new = d.insertAll new := by
  induction new generalizing d with
  | nil => rfl
  | cons entry rest ih =>
      rw [assignAll_cons, assign_of_contains present, ih (by simp [present])]
      rfl

/-- Reading after assigning entries with distinct keys. -/
theorem get?_assignAll {new : List (String × α)} (nodup : (new.map Prod.fst).Nodup)
    (d : Dict α) (k : String) :
    (d.assignAll new).get? k =
      if k = prototypeKey ∧ d.get? k = none then none
      else (Entries.get? k new).or (d.get? k) := by
  cases present : d.contains prototypeKey with
  | true =>
      have known : ¬ (k = prototypeKey ∧ d.get? k = none) := by
        rintro ⟨rfl, none⟩
        simp [contains, none] at present
      rw [assignAll_of_contains present, if_neg known]
      exact Entries.get?_insertAll nodup d.entries k
  | false =>
      have absent : d.get? prototypeKey = none := by simpa [contains] using present
      have others : ((new.filter fun entry => entry.1 ≠ prototypeKey).map Prod.fst).Nodup :=
        (List.filter_sublist.map Prod.fst).nodup nodup
      have read : (d.insertAll (new.filter fun entry => entry.1 ≠ prototypeKey)).get? k =
          (Entries.get? k (new.filter fun entry => entry.1 ≠ prototypeKey)).or (d.get? k) :=
        Entries.get?_insertAll others d.entries k
      rw [assignAll_eq_insertAll present, read, Entries.get?_filter (fun key => key ≠ prototypeKey)]
      by_cases same : k = prototypeKey
      · subst same
        simp [absent]
      · simp [same]

end Dict

end JobMatrix
