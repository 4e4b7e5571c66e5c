import JobMatrix.Proofs.Workflow.Strategies

/-! # Which strategies are accepted

The format of a strategy is told on plain data, entry by entry.  Reading accepts
exactly the data of this format, copies it, and refuses everything else at a
place that begins with the place of the strategy.
-/

namespace JobMatrix

/-! ## Values -/

namespace Number

/-- The whole numbers from one on are the natural numbers above zero. -/
theorem exists_positive_iff (n : Number) :
    (∃ count, n.toNat? = some count ∧ 1 ≤ count) ↔ n.isInteger = true ∧ n.less 1 = false := by
  have one : (1 : Number) = finite false unitsPerOne := by decide +kernel
  have positive : 0 < unitsPerOne := by decide +kernel
  rw [one]
  cases n with
  | nan | infinity => simp [toNat?, isInteger]
  | finite negative units =>
      simp only [toNat?, isInteger, less]
      -- The count of units is too large a literal to be evaluated.
      generalize unitsPerOne = unit at positive ⊢
      cases negative with
      | true =>
          have below : ¬ (unit : Int) ≤ -(units : Int) := by omega
          cases units with
          | zero => simp [signedUnits, positive]
          | succ units =>
              simp [signedUnits]
              omega
      | false => simp [signedUnits, Nat.le_div_iff_mul_le positive]

end Number

namespace Scalar

theorem ofData?_eq_some_iff {d : Data} {v : Scalar} :
    ofData? d = some v ↔ d = v.toData ∧ v.IsProper := by
  constructor
  · intro read
    refine ⟨?_, isProper_of_ofData? read⟩
    unfold ofData? at read
    split at read
    · cases read
      rfl
    · split at read
      · cases read
        rfl
      · cases read
    · cases read
      rfl
    · cases read
  · rintro ⟨rfl, proper⟩
    cases v with
    | bool | text => rfl
    | number n => exact if_pos proper

theorem equals_comm (a b : Scalar) : a.equals b = b.equals a := by
  cases a <;> cases b <;> simp only [equals]
  · exact Bool.beq_comm
  · next m n =>
      cases m <;> cases n <;> simp only [Number.equals]
      · exact Bool.beq_comm
      · rw [Bool.beq_comm, Bool.and_comm (_ == 0)]
        congr 2
        exact Bool.beq_comm
  · exact Bool.beq_comm

theorem plainZero_equals (a b : Scalar) : a.plainZero.equals b = a.equals b := by
  rw [equals_comm, equals_plainZero, equals_comm]

end Scalar

namespace Workflow

open JobMatrix.Matrix (Combination Dimension Strategy combination?)

/-! ## The format -/

/-- Data that is a value of a matrix: a truth value, a text or a finite
    number. -/
def IsScalar (d : Data) : Prop :=
  ∃ v : Scalar, d = v.toData ∧ v.IsProper

def IsRule (d : Data) : Prop :=
  ∃ entries, d = .map entries ∧ ∀ entry ∈ entries, IsScalar entry.2

def IsRuleList (d : Data) : Prop :=
  d.isNothing = true ∨ ∃ items, d = .list items ∧ ∀ item ∈ items, IsRule item

/-- Data that lists the values of a dimension: some scalars, no two of them
    equal. -/
def IsValueList (d : Data) : Prop :=
  ∃ values : List Scalar, d = .list (values.map Scalar.toData) ∧ values ≠ [] ∧
    (∀ v ∈ values, v.IsProper) ∧ values.Pairwise fun v w => v.equals w = false

/-- Entries of a matrix: rules under the reserved keys, and dimensions. -/
structure IsMatrix (entries : List (String × Data)) : Prop where
  rules : ∀ entry ∈ entries, entry.1 = "include" ∨ entry.1 = "exclude" → IsRuleList entry.2
  dimensions : ∀ entry ∈ entries, entry.1 ≠ "include" → entry.1 ≠ "exclude" →
    IsValueList entry.2

/-- Data that is a strategy. -/
inductive IsStrategy : Data → Prop
  | absent : IsStrategy .absent
  | null : IsStrategy .null
  | map {entries : List (String × Data)}
      (failFast : (Data.map entries).getD "fail-fast" = .absent ∨
        ∃ b, (Data.map entries).getD "fail-fast" = .bool b)
      (maxParallel : (Data.map entries).getD "max-parallel" = .absent ∨
        ∃ n, (Data.map entries).getD "max-parallel" = .number n ∧
          n.isInteger = true ∧ n.less 1 = false)
      (matrix : (Data.map entries).getD "matrix" = .absent ∨
        ∃ inner, (Data.map entries).getD "matrix" = .map inner ∧ IsMatrix inner) :
      IsStrategy (.map entries)

/-! ## What a strategy copies -/

def RuleCopy (d : Data) (rule : Combination) : Prop :=
  ∃ fields : List (String × Scalar), d = .map (fields.map (Prod.map id Scalar.toData)) ∧
    (∀ field ∈ fields, field.2.IsProper) ∧ rule = Dict.ofList fields

def RulesCopy (d : Data) (rules : List Combination) : Prop :=
  d.isNothing = true ∧ rules = [] ∨ ∃ items, d = .list items ∧ List.Forall₂ RuleCopy items rules

/-- A dimension has the key and the values of an entry; of the two zeros it
    takes the positive one. -/
def DimensionCopy (entry : String × Data) (d : Dimension) : Prop :=
  d.name = entry.1 ∧ ∃ values : List Scalar, entry.2 = .list (values.map Scalar.toData) ∧
    d.values = values.map Scalar.plainZero

/-- A strategy has the dimensions and the rules of a matrix. -/
structure MatrixCopy (entries : List (String × Data)) (s : Strategy) : Prop where
  dimensions : List.Forall₂ DimensionCopy (entries.filter isDimension) s.dimensions
  includes : RulesCopy ((Data.map entries).getD "include") s.includes
  excludes : RulesCopy ((Data.map entries).getD "exclude") s.excludes

/-- A strategy has what data says of it, and the defaults for the rest. -/
structure StrategyCopy (value : Data) (s : Strategy) : Prop where
  failFast : value.getD "fail-fast" = .absent ∧ s.failFast = true ∨
    value.getD "fail-fast" = .bool s.failFast
  maxParallel : value.getD "max-parallel" = .absent ∧ s.maxParallel = none ∨
    ∃ n count, value.getD "max-parallel" = .number n ∧ n.toNat? = some count ∧
      s.maxParallel = some count
  matrix : ∃ entries, MatrixCopy entries s ∧
    (value.getD "matrix" = .map entries ∨ value.getD "matrix" = .absent ∧ entries = [])

/-! ## Rules -/

theorem combination?_eq_some_iff {d : Data} {rule : Combination} :
    combination? d = some rule ↔ RuleCopy d rule := by
  constructor
  · intro read
    unfold combination? at read
    split at read
    · next entries =>
        obtain ⟨fields, found, rfl⟩ := Option.map_eq_some_iff.mp read
        have each := forall₂_of_mapM_eq_some found
        refine ⟨fields, congrArg Data.map ?_, ?_, rfl⟩
        · have names : fields.map (Prod.map id Scalar.toData) = entries.map id :=
            map_eq_of_forall₂ each fun entry field same => by
              obtain ⟨v, isScalar, rfl⟩ := Option.map_eq_some_iff.mp same
              exact Prod.ext rfl (Scalar.ofData?_eq_some_iff.mp isScalar).1.symm
          rw [names, List.map_id]
        · intro field member
          obtain ⟨entry, -, same⟩ := exists_of_forall₂ each member
          obtain ⟨v, isScalar, rfl⟩ := Option.map_eq_some_iff.mp same
          exact (Scalar.ofData?_eq_some_iff.mp isScalar).2
    · cases read
  · rintro ⟨fields, rfl, proper, rfl⟩
    have read : (fields.map (Prod.map id Scalar.toData)).mapM (fun (entry : String × Data) =>
        (Scalar.ofData? entry.2).map fun value => (entry.1, value)) = some fields := by
      induction fields with
      | nil => rfl
      | cons field rest ih =>
          have first := Scalar.ofData?_eq_some_iff.mpr ⟨rfl, proper field List.mem_cons_self⟩
          have others := ih fun other member => proper other (List.mem_cons_of_mem field member)
          rw [List.map_cons, List.mapM_cons, others]
          simp [first]
    rw [combination?, read]
    rfl

theorem isRule_iff {d : Data} : IsRule d ↔ ∃ rule, RuleCopy d rule := by
  constructor
  · rintro ⟨entries, rfl, scalars⟩
    have written : ∃ fields : List (String × Scalar),
        entries = fields.map (Prod.map id Scalar.toData) ∧ ∀ field ∈ fields, field.2.IsProper := by
      induction entries with
      | nil => exact ⟨[], rfl, nofun⟩
      | cons entry rest ih =>
          obtain ⟨v, same, proper⟩ := scalars entry List.mem_cons_self
          obtain ⟨fields, rfl, each⟩ := ih fun other member =>
            scalars other (List.mem_cons_of_mem entry member)
          refine ⟨(entry.1, v) :: fields, ?_, List.forall_mem_cons.mpr ⟨proper, each⟩⟩
          rw [List.map_cons, Prod.map, id, ← same]
    obtain ⟨fields, rfl, proper⟩ := written
    exact ⟨_, fields, rfl, proper, rfl⟩
  · rintro ⟨-, fields, rfl, proper, -⟩
    refine ⟨_, rfl, fun entry member => ?_⟩
    obtain ⟨field, listed, rfl⟩ := List.mem_map.mp member
    exact ⟨field.2, rfl, proper field listed⟩

theorem readRules_eq_ok_iff {path : String} {index : Nat} {items : List Data}
    {rules : List Combination} :
    readRules path index items = .ok rules ↔ List.Forall₂ RuleCopy items rules := by
  constructor
  · intro read
    exact (rulesOf_of_readRules read).imp fun _ _ => combination?_eq_some_iff.mp
  · intro copies
    induction copies generalizing index with
    | nil => rfl
    | cons first _ ih =>
        rw [readRules, combination?_eq_some_iff.mpr first]
        exact congrArg (Except.map _) ih

theorem ruleList_eq_ok_iff {value : Data} {path : String} {rules : List Combination} :
    ruleList value path = .ok rules ↔ RulesCopy value rules := by
  unfold ruleList RulesCopy
  cases value with
  | absent | null => simp [Data.isNothing, eq_comm]
  | list items => simp [Data.isNothing, readRules_eq_ok_iff]
  | bool | number | text | map => simp [Data.isNothing, refuse]

theorem exists_ruleList_iff {value : Data} {path : String} :
    (∃ rules, ruleList value path = .ok rules) ↔ IsRuleList value := by
  simp only [ruleList_eq_ok_iff]
  constructor
  · rintro ⟨rules, ⟨nothing, -⟩ | ⟨items, same, copies⟩⟩
    · exact .inl nothing
    · refine .inr ⟨items, same, fun item member => isRule_iff.mpr ?_⟩
      obtain ⟨rule, -, copy⟩ := exists_of_forall₂ copies.flip member
      exact ⟨rule, copy⟩
  · rintro (nothing | ⟨items, same, each⟩)
    · exact ⟨[], .inl ⟨nothing, rfl⟩⟩
    · suffices written : ∃ rules, List.Forall₂ RuleCopy items rules by
        obtain ⟨rules, copies⟩ := written
        exact ⟨rules, .inr ⟨items, same, copies⟩⟩
      clear same
      induction items with
      | nil => exact ⟨[], .nil⟩
      | cons item rest ih =>
          obtain ⟨rule, copy⟩ := isRule_iff.mp (each item List.mem_cons_self)
          obtain ⟨rules, copies⟩ := ih fun other member =>
            each other (List.mem_cons_of_mem item member)
          exact ⟨rule :: rules, .cons copy copies⟩

/-! ## Values of dimensions -/

theorem readValues_toData {path : String} {values seen : List Scalar}
    (proper : ∀ v ∈ values, v.IsProper) (distinct : values.Pairwise fun v w => v.equals w = false)
    (apart : ∀ w ∈ seen, ∀ v ∈ values, w.equals v = false) :
    readValues path seen (values.map Scalar.toData) =
      .ok (seen.reverse ++ values.map Scalar.plainZero) := by
  induction values generalizing seen with
  | nil => exact congrArg Except.ok (List.append_nil _).symm
  | cons v rest ih =>
      have fresh : seen.any (·.equals v) = false := by
        rw [List.any_eq_false]
        intro w member
        rw [apart w member v List.mem_cons_self]
        exact Bool.false_ne_true
      obtain ⟨first, distinct⟩ := List.pairwise_cons.mp distinct
      have isScalar := Scalar.ofData?_eq_some_iff.mpr ⟨rfl, proper v List.mem_cons_self⟩
      rw [List.map_cons, readValues, isScalar]
      dsimp only
      rw [fresh, if_neg Bool.false_ne_true,
        ih (fun w member => proper w (List.mem_cons_of_mem v member)) distinct]
      · simp
      · intro w member u listed
        rcases List.mem_cons.mp member with rfl | member
        · rw [Scalar.plainZero_equals]
          exact first u listed
        · exact apart w member u (List.mem_cons_of_mem v listed)

theorem exists_written {items : List Data} {values : List Scalar}
    (each : List.Forall₂ ValueOf items values) :
    ∃ written : List Scalar, items = written.map Scalar.toData ∧
      values = written.map Scalar.plainZero ∧ ∀ v ∈ written, v.IsProper := by
  induction each with
  | nil => exact ⟨[], rfl, rfl, nofun⟩
  | cons first _ ih =>
      obtain ⟨v, isScalar, rfl⟩ := first
      obtain ⟨written, rfl, rfl, proper⟩ := ih
      obtain ⟨rfl, finite⟩ := Scalar.ofData?_eq_some_iff.mp isScalar
      exact ⟨v :: written, rfl, rfl, List.forall_mem_cons.mpr ⟨finite, proper⟩⟩

theorem dimensionValues_eq_ok_iff {value : Data} {path : String} {read : List Scalar} :
    dimensionValues value path = .ok read ↔
      ∃ values : List Scalar, value = .list (values.map Scalar.toData) ∧ values ≠ [] ∧
        (∀ v ∈ values, v.IsProper) ∧ (values.Pairwise fun v w => v.equals w = false) ∧
        read = values.map Scalar.plainZero := by
  constructor
  · intro h
    have declared : DimensionOf ("", value) ⟨"", read⟩ := dimensionOf_of_dimensionValues h
    obtain ⟨-, ⟨items, same, some, each⟩, distinct⟩ := declared
    obtain ⟨written, rfl, rfl, proper⟩ := exists_written each
    refine ⟨written, same, by simpa using some, proper, ?_, rfl⟩
    rw [List.pairwise_map] at distinct
    simpa only [Scalar.plainZero_equals, Scalar.equals_plainZero] using distinct
  · rintro ⟨values, rfl, some, proper, distinct, rfl⟩
    cases values with
    | nil => exact absurd rfl some
    | cons v rest => exact readValues_toData proper distinct nofun

theorem exists_dimensionValues_iff {value : Data} {path : String} :
    (∃ values, dimensionValues value path = .ok values) ↔ IsValueList value := by
  simp only [dimensionValues_eq_ok_iff, IsValueList]
  constructor
  · rintro ⟨-, values, same, some, proper, distinct, -⟩
    exact ⟨values, same, some, proper, distinct⟩
  · rintro ⟨values, same, some, proper, distinct⟩
    exact ⟨_, values, same, some, proper, distinct, rfl⟩

/-! ## Matrices and limits -/

theorem exists_readMatrixEntry_iff (path : String) (s : Strategy) {name : String} {value : Data} :
    (∃ s', readMatrixEntry path s name value = .ok s') ↔
      (name = "include" ∨ name = "exclude" → IsRuleList value) ∧
      (name ≠ "include" → name ≠ "exclude" → IsValueList value) := by
  unfold readMatrixEntry
  dsimp only
  by_cases isInclude : name = "include"
  · subst isInclude
    rw [if_pos rfl, exists_bind_pure_iff, exists_ruleList_iff]
    simp
  · rw [if_neg isInclude]
    by_cases isExclude : name = "exclude"
    · subst isExclude
      rw [if_pos rfl, exists_bind_pure_iff, exists_ruleList_iff]
      simp
    · rw [if_neg isExclude, exists_bind_pure_iff, exists_dimensionValues_iff]
      simp [isInclude, isExclude]

theorem exists_readMatrix_iff (path : String) (s : Strategy) {entries : List (String × Data)} :
    (∃ s', readMatrix path s entries = .ok s') ↔ IsMatrix entries := by
  induction entries generalizing s with
  | nil => exact ⟨fun _ => ⟨nofun, nofun⟩, fun _ => ⟨s, rfl⟩⟩
  | cons entry rest ih =>
      obtain ⟨name, value⟩ := entry
      rw [readMatrix]
      constructor
      · rintro ⟨s', h⟩
        obtain ⟨t, first, h⟩ := exists_of_bind_eq_ok h
        obtain ⟨rules, dimensions⟩ := (exists_readMatrixEntry_iff path s).mp ⟨t, first⟩
        obtain ⟨moreRules, moreDimensions⟩ := (ih t).mp ⟨s', h⟩
        exact ⟨List.forall_mem_cons.mpr ⟨rules, moreRules⟩,
          List.forall_mem_cons.mpr ⟨dimensions, moreDimensions⟩⟩
      · rintro ⟨rules, dimensions⟩
        obtain ⟨rules, moreRules⟩ := List.forall_mem_cons.mp rules
        obtain ⟨dimensions, moreDimensions⟩ := List.forall_mem_cons.mp dimensions
        obtain ⟨t, first⟩ := (exists_readMatrixEntry_iff path s).mpr ⟨rules, dimensions⟩
        obtain ⟨s', others⟩ := (ih t).mpr ⟨moreRules, moreDimensions⟩
        exact ⟨s', by rw [first]; exact others⟩

theorem exists_readFailFast_iff {value : Data} (path : String) :
    (∃ failFast, readFailFast value path = .ok failFast) ↔
      value = .absent ∨ ∃ b, value = .bool b := by
  unfold readFailFast
  cases value <;> simp [refuse]

theorem exists_readMaxParallel_iff {value : Data} (path : String) :
    (∃ limit, readMaxParallel value path = .ok limit) ↔
      value = .absent ∨ ∃ n, value = .number n ∧ n.isInteger = true ∧ n.less 1 = false := by
  constructor
  · rintro ⟨limit, read⟩
    refine (readMaxParallel_spec read).imp And.left ?_
    rintro ⟨n, count, same, whole, positive, -⟩
    exact ⟨n, same, n.exists_positive_iff.mp ⟨count, whole, positive⟩⟩
  · rintro (rfl | ⟨n, rfl, whole⟩)
    · exact ⟨none, rfl⟩
    · obtain ⟨count, whole, positive⟩ := n.exists_positive_iff.mpr whole
      obtain ⟨count, rfl⟩ := Nat.exists_eq_add_of_le' positive
      exact ⟨some (count + 1), by rw [readMaxParallel, whole]⟩

theorem readStrategy_map {entries : List (String × Data)} {path : String} {failFast : Bool}
    {maxParallel : Option Nat}
    (first : readFailFast ((Data.map entries).getD "fail-fast") (path ++ ".fail-fast") =
      .ok failFast)
    (second : readMaxParallel ((Data.map entries).getD "max-parallel") (path ++ ".max-parallel") =
      .ok maxParallel) :
    readStrategy (.map entries) path =
      match (Data.map entries).getD "matrix" with
      | .absent => .ok { Strategy.default with failFast, maxParallel }
      | .map inner => readMatrix path { Strategy.default with failFast, maxParallel } inner
      | _ => refuse (path ++ ".matrix") .expectedMap := by
  unfold Data.getD Data.get? at first second ⊢
  unfold readStrategy
  dsimp only
  rw [first, second]
  rfl

theorem exists_readStrategy_iff {value : Data} (path : String) :
    (∃ s, readStrategy value path = .ok s) ↔ IsStrategy value := by
  constructor
  · rintro ⟨s, h⟩
    unfold readStrategy at h
    split at h
    · exact .absent
    · exact .null
    · next entries =>
        obtain ⟨failFast, readFailFast, h⟩ := exists_of_bind_eq_ok h
        obtain ⟨maxParallel, readMaxParallel, h⟩ := exists_of_bind_eq_ok h
        dsimp only at h
        refine .map ((exists_readFailFast_iff _).mp ⟨_, readFailFast⟩)
          ((exists_readMaxParallel_iff _).mp ⟨_, readMaxParallel⟩) ?_
        split at h
        · next isAbsent => exact .inl isAbsent
        · next inner isMap => exact .inr ⟨inner, isMap, (exists_readMatrix_iff _ _).mp ⟨s, h⟩⟩
        · cases h
    · cases h
  · intro format
    cases format with
    | absent | null => exact ⟨_, rfl⟩
    | map failFast maxParallel matrix =>
        obtain ⟨failFast, first⟩ := (exists_readFailFast_iff (path ++ ".fail-fast")).mpr failFast
        obtain ⟨maxParallel, second⟩ :=
          (exists_readMaxParallel_iff (path ++ ".max-parallel")).mpr maxParallel
        rw [readStrategy_map first second]
        rcases matrix with isAbsent | ⟨inner, isMap, isMatrix⟩
        · rw [isAbsent]
          exact ⟨_, rfl⟩
        · rw [isMap]
          exact (exists_readMatrix_iff path _).mpr isMatrix

/-! ## What is copied -/

theorem dimensionCopy_of_dimensionOf {entry : String × Data} {d : Dimension}
    (h : DimensionOf entry d) : DimensionCopy entry d := by
  obtain ⟨name, ⟨items, same, -, each⟩, -⟩ := h
  obtain ⟨written, rfl, values, -⟩ := exists_written each
  exact ⟨name, written, same, values⟩

theorem rulesCopy_of_rulesOf {value : Data} {rules : List Combination} (h : RulesOf value rules) :
    RulesCopy value rules :=
  h.imp id fun ⟨items, same, each⟩ =>
    ⟨items, same, each.imp fun _ _ => combination?_eq_some_iff.mp⟩

theorem strategyCopy_of_strategyOf {value : Data} {s : Strategy} (h : StrategyOf value s) :
    StrategyCopy value s := by
  obtain ⟨-, failFast, maxParallel, entries, ⟨dimensions, includes, excludes⟩, source⟩ := h
  refine ⟨failFast, maxParallel.imp id ?_, entries, ⟨?_, ?_, ?_⟩, source⟩
  · rintro ⟨n, count, same, whole, -, limit⟩
    exact ⟨n, count, same, whole, limit⟩
  · exact dimensions.imp fun _ _ => dimensionCopy_of_dimensionOf
  · exact rulesCopy_of_rulesOf includes
  · exact rulesCopy_of_rulesOf excludes

/-! ## Where refusals stand -/

def RefusedBelow {α : Type} (path : String) (result : Except Error α) : Prop :=
  ∀ e, result = .error e → ∃ place, e.path = some (path ++ place)

section Refusals

variable {α β : Type} {path : String}

theorem refusedBelow_ok (a : α) : RefusedBelow path (.ok a) := nofun

theorem refusedBelow_refuse (cause : Cause) :
    RefusedBelow path (refuse path cause : Except Error α) := by
  intro e same
  cases same
  exact ⟨"", by rw [String.append_empty]⟩

theorem RefusedBelow.of_append {place : String} {result : Except Error α}
    (h : RefusedBelow (path ++ place) result) : RefusedBelow path result := by
  intro e same
  obtain ⟨more, path⟩ := h e same
  exact ⟨place ++ more, by rw [path, String.append_assoc]⟩

theorem RefusedBelow.bind {result : Except Error α} {f : α → Except Error β}
    (first : RefusedBelow path result) (next : ∀ a, RefusedBelow path (f a)) :
    RefusedBelow path (result >>= f) := by
  intro e same
  cases result with
  | error e' =>
      cases same
      exact first _ rfl
  | ok a => exact next a e same

theorem refusedBelow_readRules (index : Nat) (items : List Data) :
    RefusedBelow path (readRules path index items) := by
  induction items generalizing index with
  | nil => exact refusedBelow_ok []
  | cons item rest ih =>
      unfold readRules
      split
      · exact (refusedBelow_refuse _).of_append
      · exact (ih (index + 1)).bind fun rules => refusedBelow_ok _

theorem refusedBelow_ruleList (value : Data) : RefusedBelow path (ruleList value path) := by
  unfold ruleList
  split
  · exact refusedBelow_ok []
  · exact refusedBelow_ok []
  · exact refusedBelow_readRules 0 _
  · exact refusedBelow_refuse _

theorem refusedBelow_readValues (seen : List Scalar) (items : List Data) :
    RefusedBelow path (readValues path seen items) := by
  induction items generalizing seen with
  | nil => exact refusedBelow_ok seen.reverse
  | cons item rest ih =>
      unfold readValues
      split
      · exact refusedBelow_refuse _
      · split
        · exact refusedBelow_refuse _
        · exact ih _

theorem refusedBelow_dimensionValues (value : Data) :
    RefusedBelow path (dimensionValues value path) := by
  unfold dimensionValues
  split
  · exact refusedBelow_readValues [] _
  · exact refusedBelow_refuse _

theorem refusedBelow_readMatrixEntry (s : Strategy) (name : String) (value : Data) :
    RefusedBelow path (readMatrixEntry path s name value) := by
  unfold readMatrixEntry
  dsimp only
  rw [String.append_assoc]
  split
  · exact (refusedBelow_ruleList value).of_append.bind fun _ => refusedBelow_ok _
  · split
    · exact (refusedBelow_ruleList value).of_append.bind fun _ => refusedBelow_ok _
    · exact (refusedBelow_dimensionValues value).of_append.bind fun _ => refusedBelow_ok _

theorem refusedBelow_readMatrix (s : Strategy) (entries : List (String × Data)) :
    RefusedBelow path (readMatrix path s entries) := by
  induction entries generalizing s with
  | nil => exact refusedBelow_ok s
  | cons entry rest ih =>
      rw [readMatrix]
      exact (refusedBelow_readMatrixEntry s entry.1 entry.2).bind ih

theorem refusedBelow_readFailFast (value : Data) : RefusedBelow path (readFailFast value path) := by
  unfold readFailFast
  split
  · exact refusedBelow_ok true
  · exact refusedBelow_ok _
  · exact refusedBelow_refuse _

theorem refusedBelow_readMaxParallel (value : Data) :
    RefusedBelow path (readMaxParallel value path) := by
  unfold readMaxParallel
  split
  · exact refusedBelow_ok none
  · split
    · exact refusedBelow_ok _
    · exact refusedBelow_refuse _
  · exact refusedBelow_refuse _

theorem refusedBelow_readStrategy (value : Data) :
    RefusedBelow path (readStrategy value path) := by
  unfold readStrategy
  split
  · exact refusedBelow_ok _
  · exact refusedBelow_ok _
  · refine (refusedBelow_readFailFast _).of_append.bind fun failFast => ?_
    refine (refusedBelow_readMaxParallel _).of_append.bind fun maxParallel => ?_
    dsimp only
    split
    · exact refusedBelow_ok _
    · exact refusedBelow_readMatrix _ _
    · exact (refusedBelow_refuse _).of_append
  · exact refusedBelow_refuse _

end Refusals

/-- **Which strategies are accepted.**  Reading succeeds exactly on the data
    that has the format of a strategy.  What it gives has the dimensions, the
    rules and the limits that the data has, in their order; all other data is
    refused at a place that begins with the given one. -/
theorem readStrategy_accepts {value : Data} (keyed : value.Keyed) (path : String) :
    ((∃ s, readStrategy value path = .ok s) ↔ IsStrategy value) ∧
    (∀ s, readStrategy value path = .ok s → StrategyCopy value s) ∧
    (¬ IsStrategy value → ∃ e place, readStrategy value path = .error e ∧
      e.path = some (path ++ place)) := by
  refine ⟨exists_readStrategy_iff path, fun s read => ?_, fun malformed => ?_⟩
  · exact strategyCopy_of_strategyOf (strategyOf_of_readStrategy keyed read)
  · cases read : readStrategy value path with
    | ok s => exact absurd ((exists_readStrategy_iff path).mp ⟨s, read⟩) malformed
    | error e =>
        obtain ⟨place, below⟩ := refusedBelow_readStrategy value e read
        exact ⟨e, place, rfl, below⟩

/-- A strategy with values of two kinds that print alike, and an empty list of
    rules. -/
def alikeInPrint : Data :=
  .map [("fail-fast", .bool false),
    ("matrix", .map [("exclude", .null), ("debug", .list [.text "true", .bool true])])]

theorem readStrategy_accepts_alikeInPrint :
    alikeInPrint.Keyed ∧ IsStrategy alikeInPrint ∧
    ∃ s, readStrategy alikeInPrint "strategy" = .ok s ∧ s.failFast = false ∧
      s.dimensions = [⟨"debug", [.text "true", .bool true]⟩] ∧ StrategyCopy alikeInPrint s := by
  have values : (Data.list [.text "true", .bool true]).Keyed :=
    .list (List.forall_mem_cons.mpr ⟨.text _, List.forall_mem_singleton.mpr (.bool _)⟩)
  have matrix : (Data.map [("exclude", .null),
      ("debug", .list [.text "true", .bool true])]).Keyed :=
    .map (by decide) (List.forall_mem_cons.mpr ⟨.null, List.forall_mem_singleton.mpr values⟩)
  have keyed : alikeInPrint.Keyed :=
    .map (by decide) (List.forall_mem_cons.mpr ⟨.bool _, List.forall_mem_singleton.mpr matrix⟩)
  obtain ⟨accepted, copied, -⟩ := readStrategy_accepts keyed "strategy"
  exact ⟨keyed, accepted.mp ⟨_, rfl⟩, _, rfl, rfl, rfl, copied _ rfl⟩

end Workflow

end JobMatrix
