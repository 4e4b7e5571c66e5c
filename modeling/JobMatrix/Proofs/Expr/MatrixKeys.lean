import JobMatrix.Proofs.Expr.Folding
import JobMatrix.Proofs.Success

/-! # The matrix keys of a template

An expression that reads the matrix by literal keys alone sees nothing of it
but the values of those keys.  So the keys that are collected from a template
are all that its text can depend on: what else a matrix holds makes no
difference, and neither does the way in which it spells them.
-/

namespace JobMatrix.Expr

mutual

/-- Whether the matrix stands only where a literal key is taken of it. -/
def matrixByKey : Expr → Bool
  | .literal _ => true
  | .context name => name != "matrix"
  | .index object key =>
      (match object, key with
        | .context "matrix", .literal (.string _) => true
        | _, _ => matrixByKey object) && matrixByKey key
  | .not operand => matrixByKey operand
  | .logical _ left right => matrixByKey left && matrixByKey right
  | .comparison _ left right => matrixByKey left && matrixByKey right
  | .call _ arguments => allMatrixByKey arguments

def allMatrixByKey : List Expr → Bool
  | [] => true
  | e :: rest => matrixByKey e && allMatrixByKey rest

end

namespace Context

def without (name : String) (context : Context) : Context :=
  ⟨context.members.filter fun member => Text.toLower member.1 != Text.toLower name⟩

def matrixValue (context : Context) (key : String) : Except Cause Value :=
  eval context (.index (.context "matrix") (.literal (.string key)))

end Context

variable {c c' : Context}

/-! ### Contexts that differ in one member -/

theorem find?_filter_of_imp {α : Type} {p q : α → Bool} (imp : ∀ a, p a = true → q a = true)
    (xs : List α) : (xs.filter q).find? p = xs.find? p := by
  rw [List.find?_filter]
  congr 1
  funext a
  cases found : p a with
  | false => simp
  | true => simp [imp a found]

theorem lookup_filter {name : String} {keep : String → Bool}
    (kept : ∀ key, Text.toLower key = Text.toLower name → keep key = true)
    (entries : List (String × Value)) :
    Value.lookup name (entries.filter fun entry => keep entry.1) = Value.lookup name entries := by
  have spelled : ∀ entry : String × Value, (entry.1 == name) = true → keep entry.1 = true :=
    fun entry same => kept entry.1 (congrArg Text.toLower (eq_of_beq same))
  have folded : ∀ entry : String × Value,
      (Text.toLower entry.1 == Text.toLower name) = true → keep entry.1 = true :=
    fun entry same => kept entry.1 (eq_of_beq same)
  simp only [Value.lookup]
  rw [find?_filter_of_imp spelled, find?_filter_of_imp folded]

theorem value_without {name other : String} (apart : Text.toLower other ≠ Text.toLower name)
    (c : Context) : (c.without name).value other = c.value other := by
  have kept : ∀ key, Text.toLower key = Text.toLower other →
      (Text.toLower key != Text.toLower name) = true := by
    intro key same
    rw [same]
    exact bne_iff_ne.mpr apart
  exact congrArg (·.getD .null) (lookup_filter kept c.members)

theorem status?_without {name : String} (apart : Text.toLower "job" ≠ Text.toLower name)
    (c : Context) : (c.without name).status? = c.status? := by
  have job := Entries.get?_filter (fun key => Text.toLower key != Text.toLower name) c.members "job"
  rw [if_pos (bne_iff_ne.mpr apart)] at job
  unfold Context.status? Context.without
  rw [job]

/-! ### What an expression sees of a matrix -/

/-- The matrix by a literal key is one case of an access; any other one reads
    what its two parts read. -/
theorem index_cases (object key : Expr) :
    (∃ name, object = .context "matrix" ∧ key = .literal (.string name)) ∨
      matrixByKey (.index object key) = (matrixByKey object && matrixByKey key) ∧
        matrixKeys (.index object key) = matrixKeys object ++ matrixKeys key := by
  by_cases byKey : ∃ name, object = .context "matrix" ∧ key = .literal (.string name)
  · exact .inl byKey
  · rw [matrixByKey, matrixKeys]
    · exact .inr ⟨rfl, rfl⟩
    all_goals exact fun name isMatrix isName => byKey ⟨name, isMatrix, isName⟩

/-- Two contexts that an expression cannot tell apart if it reads the matrix by
    these keys alone. -/
structure AgreeOn (keys : List String) (c c' : Context) : Prop where
  value {n} : n ≠ "matrix" → Text.toLower n = n → c.value n = c'.value n
  matrixValue {key} : key ∈ keys → c.matrixValue key = c'.matrixValue key
  status? : c.status? = c'.status?

theorem AgreeOn.mono {keys keys' : List String} (agree : AgreeOn keys c c')
    (sub : keys' ⊆ keys) : AgreeOn keys' c c' :=
  { agree with matrixValue := fun member => agree.matrixValue (sub member) }

theorem agreeOn_of_without {keys : List String} (apart : c.without "matrix" = c'.without "matrix")
    (found : ∀ key ∈ keys, c.matrixValue key = c'.matrixValue key) : AgreeOn keys c c' where
  value := by
    intro n other lower
    have matrix : Text.toLower "matrix" = "matrix" := by cbv
    have noMatrix : Text.toLower n ≠ Text.toLower "matrix" := by rwa [lower, matrix]
    rw [← value_without noMatrix c, ← value_without noMatrix c', apart]
  matrixValue := fun member => found _ member
  status? := by
    have noMatrix : Text.toLower "job" ≠ Text.toLower "matrix" := by cbv
    rw [← status?_without noMatrix c, ← status?_without noMatrix c', apart]

/-- Two contexts make no difference to an expression with these names and keys. -/
structure Unchanged (c c' : Context) (names : List String) (byKey : Bool) (keys : List String) :
    Prop where
  folded : ∀ n ∈ names, Text.toLower n = n
  byKey : byKey = true
  agree : AgreeOn keys c c'

theorem Unchanged.split {names names' keys keys' : List String} {byKey byKey' : Bool}
    (h : Unchanged c c' (names ++ names') (byKey && byKey') (keys ++ keys')) :
    Unchanged c c' names byKey keys ∧ Unchanged c c' names' byKey' keys' := by
  obtain ⟨folded, both, agree⟩ := h
  rw [List.forall_mem_append] at folded
  rw [Bool.and_eq_true] at both
  exact ⟨⟨folded.1, both.1, agree.mono (List.subset_append_left _ _)⟩,
    ⟨folded.2, both.2, agree.mono (List.subset_append_right _ _)⟩⟩

-- An access to the matrix is a leaf here: the matrix itself is no value that
-- the contexts agree on, so its part cannot be looked at.
mutual

theorem eval_eq_of_unchanged : (e : Expr) →
    Unchanged c c' (contextNames e) (matrixByKey e) (matrixKeys e) → eval c e = eval c' e
  | .literal _, _ => rfl
  | .context name, h => by
      rw [eval_context, eval_context,
        h.agree.value (bne_iff_ne.mp h.byKey) (h.folded name List.mem_cons_self)]
  | .index object key, h => by
      rcases index_cases object key with ⟨name, rfl, rfl⟩ | ⟨byKey, keys⟩
      · exact h.agree.matrixValue (List.mem_append_left _ List.mem_cons_self)
      · rw [contextNames, byKey, keys] at h
        rw [eval, eval, eval_eq_of_unchanged object h.split.1, eval_eq_of_unchanged key h.split.2]
  | .not operand, h => by
      rw [contextNames, matrixByKey, matrixKeys] at h
      rw [eval, eval, eval_eq_of_unchanged operand h]
  | .logical op left right, h => by
      rw [contextNames, matrixByKey, matrixKeys] at h
      rw [eval, eval, eval_eq_of_unchanged left h.split.1, eval_eq_of_unchanged right h.split.2]
  | .comparison op left right, h => by
      rw [contextNames, matrixByKey, matrixKeys] at h
      rw [eval, eval, eval_eq_of_unchanged left h.split.1, eval_eq_of_unchanged right h.split.2]
  | .call name arguments, h => by
      have applies : apply c name = apply c' name := funext (apply_congr fun _ => h.agree.status?)
      rw [contextNames, matrixByKey, matrixKeys] at h
      rw [eval, eval, evalAll_eq_of_unchanged arguments h, applies]

theorem evalAll_eq_of_unchanged : (es : List Expr) →
    Unchanged c c' (allContextNames es) (allMatrixByKey es) (allMatrixKeys es) →
    evalAll c es = evalAll c' es
  | [], _ => rfl
  | e :: rest, h => by
      rw [allContextNames, allMatrixByKey, allMatrixKeys] at h
      rw [evalAll, evalAll, eval_eq_of_unchanged e h.split.1,
        evalAll_eq_of_unchanged rest h.split.2]

end

/-! ### From expressions to templates -/

theorem matrixKeys_subset {parts : List Segment} {keys : List String}
    (collected : segmentKeys parts = .ok keys) {source : List Char} {e : Expr}
    (member : Segment.expression source ∈ parts)
    (parsed : parse (String.ofList (Text.trimChars source)) = .ok e) : matrixKeys e ⊆ keys := by
  induction parts generalizing keys with
  | nil => cases member
  | cons part rest ih =>
      cases part with
      | char a =>
          rw [segmentKeys] at collected
          exact ih collected (by simpa using member)
      | expression first =>
          rw [segmentKeys] at collected
          obtain ⟨e', parsed', collected⟩ := exists_of_bind_eq_ok collected
          obtain ⟨more, behind, collected⟩ := exists_of_bind_eq_ok collected
          cases collected
          rcases List.mem_cons.mp member with here | member
          · cases here
            cases parsed'.symm.trans parsed
            exact List.subset_append_left _ _
          · exact List.Subset.trans (ih behind member) (List.subset_append_right _ _)

/-- The keys that are collected from a template are complete: where the matrix
    stands in it by literal keys only, two contexts that differ in nothing but
    the matrix, and agree on what the collected keys find there, give the
    template the same text or the same error. -/
theorem interpolate_determined_by_keys {template : String} {keys : List String}
    (collected : collectMatrixKeys template = .ok keys)
    (byKey : ∀ e, Embeds template e → matrixByKey e = true)
    (apart : c.without "matrix" = c'.without "matrix")
    (found : ∀ key ∈ keys, c.matrixValue key = c'.matrixValue key) :
    interpolate template c = interpolate template c' := by
  obtain ⟨all, listed, once⟩ := exists_of_bind_eq_ok collected
  cases once
  have agree : AgreeOn all c c' :=
    agreeOn_of_without apart fun key member => found key (List.mem_eraseDups.mpr member)
  apply interpolate_congr
  rintro e ⟨source, member, parsed⟩
  exact eval_eq_of_unchanged e ⟨folded_of_parse parsed, byKey e ⟨source, member, parsed⟩,
    agree.mono (matrixKeys_subset listed member parsed)⟩

theorem interpolate_determined_by_os :
    let template := "$\x7b\x7b matrix.OS \x7d\x7d-$\x7b\x7b !matrix['v'] \x7d\x7d"
    let c : Context :=
      ⟨[("matrix", .map [0] [("os", .text "linux"), ("arch", .text "arm")]), ("env", .map [1] [])]⟩
    let c' : Context := ⟨[("matrix", .map [0] [("Os", .text "linux")]), ("env", .map [1] [])]⟩
    collectMatrixKeys template = .ok ["OS", "v"] ∧
      (∀ e, Embeds template e → matrixByKey e = true) ∧
      c.without "matrix" = c'.without "matrix" ∧
      (∀ key ∈ ["OS", "v"], c.matrixValue key = c'.matrixValue key) ∧
      interpolate template c = .ok "linux-true" ∧ interpolate template c' = .ok "linux-true" := by
  intro template c c'
  have first : parse (String.ofList (Text.trimChars " matrix.OS ".toList)) =
      .ok (.index (.context "matrix") (.literal (.string "OS"))) := by cbv
  have second : parse (String.ofList (Text.trimChars " !matrix['v'] ".toList)) =
      .ok (.not (.index (.context "matrix") (.literal (.string "v")))) := by cbv
  have parts : segments template.toList =
      [.expression " matrix.OS ".toList, .char '-', .expression " !matrix['v'] ".toList] := by cbv
  have collected : collectMatrixKeys template = .ok ["OS", "v"] := by cbv
  have byKey : ∀ e, Embeds template e → matrixByKey e = true := by
    refine forall_embeds parts fun source member => ?_
    simp only [List.mem_cons, Segment.expression.injEq, reduceCtorEq, false_or,
      List.not_mem_nil, or_false] at member
    rcases member with rfl | rfl
    · exact ⟨_, first, rfl⟩
    · exact ⟨_, second, rfl⟩
  have apart : c.without "matrix" = c'.without "matrix" := by cbv
  have found : ∀ key ∈ ["OS", "v"], c.matrixValue key = c'.matrixValue key :=
    List.forall_mem_cons.mpr ⟨by cbv, List.forall_mem_singleton.mpr (by cbv)⟩
  have text : interpolate template c = .ok "linux-true" := by cbv
  refine ⟨collected, byKey, apart, found, text, ?_⟩
  rw [← interpolate_determined_by_keys collected byKey apart found, text]

end JobMatrix.Expr
