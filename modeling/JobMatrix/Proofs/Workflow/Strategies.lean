import Mathlib.Data.List.Forall2
import JobMatrix.Proofs.Data.Keyed
import JobMatrix.Workflow.Strategy

/-! # What a strategy declares

A strategy that is read from data has dimensions of distinct names and distinct
values, and rules that are maps of scalars: what resolving its matrix relies
on.
-/

namespace JobMatrix

/-! ## Values -/

namespace Scalar

/-- A value that a matrix may hold: no number without a finite value. -/
def IsProper : Scalar → Prop
  | number n => n.isFinite = true
  | bool _ | text _ => True

theorem isProper_of_ofData? {d : Data} {v : Scalar} (h : ofData? d = some v) : v.IsProper := by
  unfold ofData? at h
  split at h
  · cases h
    trivial
  · next n =>
      split at h
      · next finite =>
          cases h
          exact finite
      · cases h
  · cases h
    trivial
  · cases h

theorem isProper_plainZero {v : Scalar} (h : v.IsProper) : v.plainZero.IsProper := by
  cases v with
  | bool | text => trivial
  | number n =>
      cases n with
      | nan | infinity => cases h
      | finite negative units =>
          cases units with
          | zero => rfl
          | succ units => rfl

theorem equals_plainZero (a b : Scalar) : a.equals b.plainZero = a.equals b := by
  cases b with
  | bool | text => rfl
  | number n =>
      cases a with
      | bool | text => rfl
      | number m =>
          cases n with
          | nan | infinity => rfl
          | finite negative units =>
              cases units with
              | succ units => rfl
              | zero =>
                  cases m with
                  | nan | infinity => rfl
                  | finite negative' units' =>
                      cases units' <;> simp [plainZero, Number.plainZero, equals, Number.equals]

end Scalar

/-! ## Well-formed strategies -/

namespace Matrix

/-- What resolving a matrix and running its jobs rely on. -/
structure Strategy.WellFormed (s : Strategy) : Prop where
  names : (s.dimensions.map (·.name)).Nodup
  reserved : ∀ d ∈ s.dimensions, d.name ≠ "include" ∧ d.name ≠ "exclude"
  nonempty : ∀ d ∈ s.dimensions, d.values ≠ []
  distinct : ∀ d ∈ s.dimensions, d.values.Pairwise fun v w => v.equals w = false
  values : ∀ d ∈ s.dimensions, ∀ v ∈ d.values, v.IsProper
  includes : ∀ rule ∈ s.includes, ∀ v ∈ rule.values, v.IsProper
  excludes : ∀ rule ∈ s.excludes, ∀ v ∈ rule.values, v.IsProper
  maxParallel : ∀ count, s.maxParallel = some count → 1 ≤ count

theorem isProper_of_combination? {d : Data} {rule : Combination} (h : combination? d = some rule)
    {v : Scalar} (member : v ∈ rule.values) : v.IsProper := by
  unfold combination? at h
  split at h
  · next entries =>
      obtain ⟨values, read, rfl⟩ := Option.map_eq_some_iff.mp h
      obtain ⟨entry, listed, rfl⟩ := List.mem_map.mp member
      rcases Entries.mem_of_mem_insertAll listed with listed | impossible
      · obtain ⟨source, -, same⟩ :=
          exists_of_forall₂ (forall₂_of_mapM_eq_some read) listed
        obtain ⟨value, isScalar, rfl⟩ := Option.map_eq_some_iff.mp same
        exact Scalar.isProper_of_ofData? isScalar
      · cases impossible
  · cases h

end Matrix

/-! ## Declared matrices -/

namespace Workflow

open JobMatrix.Matrix (Combination Dimension Strategy combination?)

/-- A value stands for what an item holds; the two zeros are one value. -/
def ValueOf (item : Data) (v : Scalar) : Prop :=
  ∃ written, Scalar.ofData? item = some written ∧ v = written.plainZero

/-- A dimension is what an entry of a matrix declares. -/
structure DimensionOf (entry : String × Data) (d : Dimension) : Prop where
  name : d.name = entry.1
  values : ∃ items, entry.2 = .list items ∧ items ≠ [] ∧ List.Forall₂ ValueOf items d.values
  distinct : d.values.Pairwise fun v w => v.equals w = false

def RulesOf (value : Data) (rules : List Combination) : Prop :=
  value.isNothing = true ∧ rules = [] ∨
    ∃ items, value = .list items ∧
      List.Forall₂ (fun item rule => combination? item = some rule) items rules

/-- Whether a key of a matrix names a dimension. -/
def isDimension (entry : String × Data) : Bool :=
  entry.1 != "include" && entry.1 != "exclude"

/-- A strategy has the dimensions and the rules that a matrix declares. -/
structure MatrixOf (entries : List (String × Data)) (s : Strategy) : Prop where
  dimensions : List.Forall₂ DimensionOf (entries.filter isDimension) s.dimensions
  includes : RulesOf ((Data.map entries).getD "include") s.includes
  excludes : RulesOf ((Data.map entries).getD "exclude") s.excludes

/-! ## Reading a matrix -/

theorem rulesOf_of_readRules {path : String} {index : Nat} {items : List Data}
    {rules : List Combination} (h : readRules path index items = .ok rules) :
    List.Forall₂ (fun item rule => combination? item = some rule) items rules := by
  induction items generalizing index rules with
  | nil =>
      cases h
      exact .nil
  | cons item rest ih =>
      unfold readRules at h
      split at h
      · cases h
      · next rule found =>
          obtain ⟨others, more, h⟩ := exists_of_bind_eq_ok h
          cases h
          exact .cons found (ih more)

theorem rulesOf_of_ruleList {value : Data} {path : String} {rules : List Combination}
    (h : ruleList value path = .ok rules) : RulesOf value rules := by
  unfold ruleList at h
  split at h
  · cases h
    exact .inl ⟨rfl, rfl⟩
  · cases h
    exact .inl ⟨rfl, rfl⟩
  · exact .inr ⟨_, rfl, rulesOf_of_readRules h⟩
  · cases h

/-- Values are read in order, each apart from those before it. -/
theorem readValues_spec {path : String} {seen values : List Scalar} {items : List Data}
    (h : readValues path seen items = .ok values)
    (distinct : seen.Pairwise fun v w => w.equals v = false) :
    ∃ more, values = seen.reverse ++ more ∧ List.Forall₂ ValueOf items more ∧
      values.Pairwise fun v w => v.equals w = false := by
  induction items generalizing seen with
  | nil =>
      cases h
      exact ⟨[], (List.append_nil _).symm, .nil, List.pairwise_reverse.mpr distinct⟩
  | cons item rest ih =>
      unfold readValues at h
      split at h
      · cases h
      next written found =>
      split at h
      · cases h
      next fresh =>
      have apart : ∀ v ∈ seen, v.equals written.plainZero = false := by
        intro v member
        rw [Scalar.equals_plainZero]
        exact Bool.eq_false_iff.mpr fun same => fresh (List.any_eq_true.mpr ⟨v, member, same⟩)
      obtain ⟨more, rfl, each, ordered⟩ := ih h (distinct.cons apart)
      rw [List.reverse_cons, List.append_assoc] at ordered ⊢
      exact ⟨written.plainZero :: more, rfl, .cons ⟨written, found, rfl⟩ each, ordered⟩

theorem dimensionOf_of_dimensionValues {name path : String} {value : Data} {values : List Scalar}
    (h : dimensionValues value path = .ok values) : DimensionOf (name, value) ⟨name, values⟩ := by
  unfold dimensionValues at h
  split at h
  · next item rest =>
      obtain ⟨more, rfl, each, distinct⟩ := readValues_spec h .nil
      exact ⟨rfl, ⟨item :: rest, rfl, nofun, each⟩, distinct⟩
  · cases h

/-- The rules that a key of a matrix writes, or those from before. -/
def Overwritten (old : List Combination) (value? : Option Data) (rules : List Combination) : Prop :=
  match value? with
  | none => rules = old
  | some value => RulesOf value rules

/-- What reading entries of a matrix does to a strategy. -/
structure Extends (entries : List (String × Data)) (s s' : Strategy) : Prop where
  dimensions : ∃ more, s'.dimensions = s.dimensions ++ more ∧
    List.Forall₂ DimensionOf (entries.filter isDimension) more
  includes : Overwritten s.includes (Entries.get? "include" entries) s'.includes
  excludes : Overwritten s.excludes (Entries.get? "exclude" entries) s'.excludes
  failFast : s'.failFast = s.failFast
  maxParallel : s'.maxParallel = s.maxParallel

theorem extends_of_readMatrix {path : String} {entries : List (String × Data)} {s s' : Strategy}
    (nodup : (entries.map Prod.fst).Nodup) (h : readMatrix path s entries = .ok s') :
    Extends entries s s' := by
  induction entries generalizing s with
  | nil =>
      cases h
      exact ⟨⟨[], (List.append_nil _).symm, .nil⟩, rfl, rfl, rfl, rfl⟩
  | cons entry rest ih =>
      obtain ⟨name, value⟩ := entry
      rw [List.map_cons, List.nodup_cons] at nodup
      unfold readMatrix at h
      obtain ⟨t, first, h⟩ := exists_of_bind_eq_ok h
      obtain ⟨⟨more, grown, each⟩, includes, excludes, failFast, maxParallel⟩ := ih nodup.2 h
      unfold readMatrixEntry at first
      dsimp only at first
      split at first
      · -- No later entry has the key again, so the rules stay as they are.
        next isInclude =>
          subst isInclude
          obtain ⟨rules, read, first⟩ := exists_of_bind_eq_ok first
          cases first
          rw [Entries.get?_eq_none_iff.mpr nodup.1] at includes
          refine ⟨⟨more, grown, each⟩, ?_, excludes, failFast, maxParallel⟩
          rw [show s'.includes = rules from includes]
          exact rulesOf_of_ruleList read
      · split at first
        · next isExclude =>
            subst isExclude
            obtain ⟨rules, read, first⟩ := exists_of_bind_eq_ok first
            cases first
            rw [Entries.get?_eq_none_iff.mpr nodup.1] at excludes
            refine ⟨⟨more, grown, each⟩, includes, ?_, failFast, maxParallel⟩
            rw [show s'.excludes = rules from excludes]
            exact rulesOf_of_ruleList read
        · next notInclude notExclude =>
            obtain ⟨values, read, first⟩ := exists_of_bind_eq_ok first
            cases first
            refine ⟨⟨⟨name, values⟩ :: more, ?_, ?_⟩, ?_, ?_, failFast, maxParallel⟩
            · rw [grown, List.append_assoc]
              rfl
            · rw [List.filter_cons_of_pos (by simp [isDimension, notInclude, notExclude])]
              exact .cons (dimensionOf_of_dimensionValues read) each
            · rwa [Entries.get?, if_neg notInclude]
            · rwa [Entries.get?, if_neg notExclude]

theorem matrixOf_of_readMatrix {path : String} {entries : List (String × Data)} {s s' : Strategy}
    (nodup : (entries.map Prod.fst).Nodup) (dimensions : s.dimensions = [])
    (includes : s.includes = []) (excludes : s.excludes = [])
    (h : readMatrix path s entries = .ok s') : MatrixOf entries s' := by
  have grown := extends_of_readMatrix nodup h
  obtain ⟨more, declared, each⟩ := grown.dimensions
  have rulesOf {old rules : List Combination} {key : String} (none : old = [])
      (written : Overwritten old (Entries.get? key entries) rules) :
      RulesOf ((Data.map entries).getD key) rules := by
    rw [Data.getD, Data.get?]
    cases found : Entries.get? key entries with
    | none =>
        rw [found] at written
        exact .inl ⟨rfl, written.trans none⟩
    | some value =>
        rw [found] at written
        exact written
  refine ⟨?_, rulesOf includes grown.includes, rulesOf excludes grown.excludes⟩
  rwa [declared, dimensions, List.nil_append]

/-! ## Strategies -/

/-- A strategy is what the data of a job declares. -/
structure StrategyOf (value : Data) (s : Strategy) : Prop where
  shape : value.isNothing = true ∨ ∃ entries, value = .map entries
  failFast : value.getD "fail-fast" = .absent ∧ s.failFast = true ∨
    value.getD "fail-fast" = .bool s.failFast
  maxParallel : value.getD "max-parallel" = .absent ∧ s.maxParallel = none ∨
    ∃ n count, value.getD "max-parallel" = .number n ∧ n.toNat? = some count ∧ 1 ≤ count ∧
      s.maxParallel = some count
  matrix : ∃ entries, MatrixOf entries s ∧
    (value.getD "matrix" = .map entries ∨ value.getD "matrix" = .absent ∧ entries = [])

theorem matrixOf_nil {s : Strategy} (dimensions : s.dimensions = []) (includes : s.includes = [])
    (excludes : s.excludes = []) : MatrixOf [] s := by
  refine ⟨?_, .inl ⟨rfl, includes⟩, .inl ⟨rfl, excludes⟩⟩
  rw [dimensions]
  exact .nil

theorem readFailFast_spec {value : Data} {path : String} {failFast : Bool}
    (h : readFailFast value path = .ok failFast) :
    value = .absent ∧ failFast = true ∨ value = .bool failFast := by
  unfold readFailFast at h
  split at h
  · cases h
    exact .inl ⟨rfl, rfl⟩
  · cases h
    exact .inr rfl
  · cases h

theorem readMaxParallel_spec {value : Data} {path : String} {maxParallel : Option Nat}
    (h : readMaxParallel value path = .ok maxParallel) : value = .absent ∧ maxParallel = none ∨
      ∃ n count, value = .number n ∧ n.toNat? = some count ∧ 1 ≤ count ∧
        maxParallel = some count := by
  unfold readMaxParallel at h
  split at h
  · cases h
    exact .inl ⟨rfl, rfl⟩
  · next n =>
      split at h
      · next count whole =>
          cases h
          exact .inr ⟨n, count + 1, rfl, whole, by omega, rfl⟩
      · cases h
  · cases h

theorem strategyOf_of_readStrategy {value : Data} {path : String} {s : Strategy}
    (keyed : value.Keyed) (h : readStrategy value path = .ok s) : StrategyOf value s := by
  unfold readStrategy at h
  split at h
  · cases h
    exact ⟨.inl rfl, .inl ⟨rfl, rfl⟩, .inl ⟨rfl, rfl⟩, [], matrixOf_nil rfl rfl rfl, .inr ⟨rfl, rfl⟩⟩
  · cases h
    exact ⟨.inl rfl, .inl ⟨rfl, rfl⟩, .inl ⟨rfl, rfl⟩, [], matrixOf_nil rfl rfl rfl, .inr ⟨rfl, rfl⟩⟩
  · next entries =>
      have shape : (Data.map entries).isNothing = true ∨
          ∃ entries', Data.map entries = .map entries' := .inr ⟨entries, rfl⟩
      have keyedMatrix := keyed.getD "matrix"
      obtain ⟨failFast, readFailFast, h⟩ := exists_of_bind_eq_ok h
      obtain ⟨maxParallel, readMaxParallel, h⟩ := exists_of_bind_eq_ok h
      dsimp only at h
      have hasFailFast := readFailFast_spec readFailFast
      have hasMaxParallel := readMaxParallel_spec readMaxParallel
      split at h
      · next isAbsent =>
          cases h
          exact ⟨shape, hasFailFast, hasMaxParallel, [], matrixOf_nil rfl rfl rfl,
            .inr ⟨isAbsent, rfl⟩⟩
      · next dimensions isMap =>
          rw [show (Data.map entries).getD "matrix" = .map dimensions from isMap] at keyedMatrix
          have read := extends_of_readMatrix keyedMatrix.nodup h
          refine ⟨shape, ?_, ?_, dimensions, matrixOf_of_readMatrix keyedMatrix.nodup rfl rfl rfl h,
            .inl isMap⟩
          · rw [read.failFast]
            exact hasFailFast
          · rw [read.maxParallel]
            exact hasMaxParallel
      · cases h
  · cases h

theorem isProper_of_rulesOf {value : Data} {rules : List Combination} (h : RulesOf value rules)
    {rule : Combination} (member : rule ∈ rules) {v : Scalar} (holds : v ∈ rule.values) :
    v.IsProper := by
  rcases h with ⟨-, rfl⟩ | ⟨items, -, each⟩
  · cases member
  · obtain ⟨item, -, isRule⟩ := exists_of_forall₂ each member
    exact Matrix.isProper_of_combination? isRule holds

theorem names_of_matrixOf {entries : List (String × Data)} {s : Strategy} (h : MatrixOf entries s) :
    s.dimensions.map (·.name) = (entries.filter isDimension).map Prod.fst :=
  map_eq_of_forall₂ h.dimensions fun _ _ declared => declared.name

theorem StrategyOf.wellFormed {value : Data} {s : Strategy} (h : StrategyOf value s)
    (keyed : value.Keyed) : s.WellFormed := by
  obtain ⟨entries, declared, source⟩ := h.matrix
  have nodup : (entries.map Prod.fst).Nodup := by
    rcases source with isMap | ⟨-, rfl⟩
    · have keyedMatrix := keyed.getD "matrix"
      rw [isMap] at keyedMatrix
      exact keyedMatrix.nodup
    · exact List.nodup_nil
  refine ⟨?names, ?reserved, ?nonempty, ?distinct, ?values, ?includes, ?excludes, ?maxParallel⟩
  case names =>
    rw [names_of_matrixOf declared]
    exact nodup.sublist (List.filter_sublist.map _)
  case reserved =>
    intro d member
    obtain ⟨entry, listed, dimension⟩ := exists_of_forall₂ declared.dimensions member
    have named := (List.mem_filter.mp listed).2
    rw [dimension.name]
    simpa [isDimension] using named
  case nonempty =>
    intro d member empty
    obtain ⟨entry, -, dimension⟩ := exists_of_forall₂ declared.dimensions member
    obtain ⟨items, -, some, each⟩ := dimension.values
    rw [empty] at each
    cases each
    exact some rfl
  case distinct =>
    intro d member
    obtain ⟨entry, -, dimension⟩ := exists_of_forall₂ declared.dimensions member
    exact dimension.distinct
  case values =>
    intro d member v holds
    obtain ⟨entry, -, dimension⟩ := exists_of_forall₂ declared.dimensions member
    obtain ⟨items, -, -, each⟩ := dimension.values
    obtain ⟨item, -, written, isScalar, rfl⟩ := exists_of_forall₂ each holds
    exact Scalar.isProper_plainZero (Scalar.isProper_of_ofData? isScalar)
  case includes =>
    intro rule member v holds
    exact isProper_of_rulesOf declared.includes member holds
  case excludes =>
    intro rule member v holds
    exact isProper_of_rulesOf declared.excludes member holds
  case maxParallel =>
    intro count limited
    rcases h.maxParallel with ⟨-, none⟩ | ⟨n, count', -, -, positive, some⟩
    · rw [none] at limited
      cases limited
    · rw [some] at limited
      cases limited
      exact positive

end Workflow

end JobMatrix
