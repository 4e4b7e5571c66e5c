import JobMatrix.Expr.Eval
import JobMatrix.Proofs.Expr.Parsing
import JobMatrix.Proofs.Expr.Respelling
import JobMatrix.Proofs.Success
import Mathlib

/-! # Names in any case

A context, a property, a function or a keyword may be written in any case, as
long as the values themselves do not tell names apart by their case.  A
property is the one place where the tree keeps the case: there the key as
written goes first, and only where no two keys differ in their case alone is it
the one that any other spelling finds.
-/

namespace JobMatrix.Expr

/-- Values in which no map has two keys that are equal without regard to case. -/
inductive Value.Keyed : Value → Prop
  | null : Keyed .null
  | bool {value} : Keyed (.bool value)
  | number {value} : Keyed (.number value)
  | text {value} : Keyed (.text value)
  | list {node items} (each : ∀ item ∈ items, Keyed item) : Keyed (.list node items)
  | map {node} {entries : List (String × Value)}
      (nodup : (entries.map fun entry => Text.toLower entry.1).Nodup)
      (each : ∀ entry ∈ entries, Keyed entry.2) : Keyed (.map node entries)

def Context.Keyed (context : Context) : Prop :=
  (Value.map [] context.members).Keyed

/-! ### What a lookup finds -/

section Lookup

variable {entries : List (String × Value)} {name name' : String} {value : Value}

theorem mem_of_lookup (found : Value.lookup name entries = some value) :
    ∃ key, (key, value) ∈ entries := by
  unfold Value.lookup at found
  split at found
  · next entry spelled =>
      cases found
      exact ⟨entry.1, List.mem_of_find?_eq_some spelled⟩
  · obtain ⟨entry, folded, rfl⟩ := Option.map_eq_some_iff.mp found
    exact ⟨entry.1, List.mem_of_find?_eq_some folded⟩

theorem lookup_eq_none_iff : Value.lookup name entries = none ↔
    ∀ entry ∈ entries, Text.toLower entry.1 ≠ Text.toLower name := by
  unfold Value.lookup
  split
  · next entry spelled =>
      have same : entry.1 = name := by simpa using List.find?_some spelled
      have found : ∃ other ∈ entries, Text.toLower other.1 = Text.toLower name :=
        ⟨entry, List.mem_of_find?_eq_some spelled, congrArg Text.toLower same⟩
      simpa using found
  · rw [Option.map_eq_none_iff, List.find?_eq_none]
    simp

/-- Where no two keys differ in case only, the spelling of a name that is
    looked up goes for nothing. -/
theorem lookup_eq_find? (nodup : (entries.map fun entry => Text.toLower entry.1).Nodup) :
    Value.lookup name entries =
      (entries.find? fun entry => Text.toLower entry.1 == Text.toLower name).map Prod.snd := by
  unfold Value.lookup
  split
  · next entry spelled =>
      have member := List.mem_of_find?_eq_some spelled
      obtain rfl : entry.1 = name := by simpa using List.find?_some spelled
      cases folded : entries.find? fun other => Text.toLower other.1 == Text.toLower entry.1 with
      | none => simpa using List.find?_eq_none.mp folded entry member
      | some other =>
          have same : Text.toLower other.1 = Text.toLower entry.1 := by
            simpa using List.find?_some folded
          rw [List.inj_on_of_nodup_map nodup (List.mem_of_find?_eq_some folded) member same]
          rfl
  · rfl

theorem lookup_congr (nodup : (entries.map fun entry => Text.toLower entry.1).Nodup)
    (same : Text.toLower name = Text.toLower name') :
    Value.lookup name entries = Value.lookup name' entries := by
  rw [lookup_eq_find? nodup, lookup_eq_find? nodup, same]

end Lookup

/-! ### Values of values -/

theorem Value.Keyed.property {target : Value} (keyed : target.Keyed) (key : Value) :
    (target.property key).Keyed := by
  cases keyed with
  | null | bool | number | text => exact .null
  | @list node items each =>
      cases key with
      | number n =>
          simp only [Value.property]
          cases found : n.toNat?.bind (items[·]?) with
          | none => exact .null
          | some item =>
              obtain ⟨i, -, found⟩ := Option.bind_eq_some_iff.mp found
              exact each item (List.mem_of_getElem? found)
      | _ => exact .null
  | @map node entries nodup each =>
      simp only [Value.property]
      cases found : Value.lookup key.toText entries with
      | none => exact .null
      | some value =>
          obtain ⟨name, member⟩ := mem_of_lookup found
          exact each (name, value) member

theorem property_congr {target : Value} (keyed : target.Keyed) {name name' : String}
    (same : Text.toLower name = Text.toLower name') :
    target.property (.text name) = target.property (.text name') := by
  cases keyed with
  | null | bool | number | text | list => rfl
  | map nodup =>
      simp only [Value.property, Value.toText]
      rw [lookup_congr nodup same]

/-- A call returns a truth value or a text. -/
theorem keyed_of_apply {context : Context} {name : String} {arguments : List Value} {value : Value}
    (h : apply context name arguments = .ok value) : value.Keyed := by
  unfold apply at h
  split at h
  any_goals cases h <;> constructor
  repeat' split at h
  all_goals cases h

variable {context : Context}

theorem keyed_of_eval (keyed : context.Keyed) {value : Value} :
    (e : Expr) → eval context e = .ok value → value.Keyed
  | .literal written, h => by
      cases h
      cases written <;> constructor
  | .context name, h => by
      rw [eval] at h
      split at h
      · cases h
      · cases h
      · next found =>
          cases h
          obtain ⟨key, member⟩ := mem_of_lookup found
          cases keyed with
          | map nodup each => exact each (key, value) member
  | .index object key, h => by
      rw [eval] at h
      obtain ⟨target, evaluated, h⟩ := exists_of_bind_eq_ok h
      obtain ⟨key, -, h⟩ := exists_of_bind_eq_ok h
      cases h
      exact (keyed_of_eval keyed object evaluated).property key
  | .not operand, h => by
      rw [eval] at h
      obtain ⟨_, -, h⟩ := exists_of_bind_eq_ok h
      cases h
      exact .bool
  | .logical op left right, h => by
      rw [eval] at h
      obtain ⟨first, evaluated, h⟩ := exists_of_bind_eq_ok h
      have first := keyed_of_eval keyed left evaluated
      have second : eval context right = .ok value → value.Keyed := keyed_of_eval keyed right
      cases op <;> dsimp only at h <;> split at h
      · exact second h
      · cases h
        exact first
      · cases h
        exact first
      · exact second h
  | .comparison op left right, h => by
      rw [eval] at h
      obtain ⟨_, -, h⟩ := exists_of_bind_eq_ok h
      obtain ⟨_, -, h⟩ := exists_of_bind_eq_ok h
      cases h
      exact .bool
  | .call name arguments, h => by
      rw [eval] at h
      obtain ⟨values, -, h⟩ := exists_of_bind_eq_ok h
      exact keyed_of_apply h

/-! ### Trees that differ in the spelling of properties -/

variable {R : Spelling}

mutual

theorem Like.callsStatus_eq {t t' : Expr} (like : Like R t t') : callsStatus t = callsStatus t' := by
  cases like with
  | literal | context => rfl
  | property object name => simp only [callsStatus, object.callsStatus_eq]
  | index object key => rw [callsStatus, callsStatus, object.callsStatus_eq, key.callsStatus_eq]
  | not operand => rw [callsStatus, callsStatus, operand.callsStatus_eq]
  | logical left right | comparison left right =>
      rw [callsStatus, callsStatus, left.callsStatus_eq, right.callsStatus_eq]
  | call arguments => rw [callsStatus, callsStatus, anyCallsStatus_eq arguments]
termination_by sizeOf t

theorem anyCallsStatus_eq {ts ts' : List Expr} (likes : List.Forall₂ (Like R) ts ts') :
    anyCallsStatus ts = anyCallsStatus ts' := by
  cases likes with
  | nil => rfl
  | cons first others =>
      rw [anyCallsStatus, anyCallsStatus, first.callsStatus_eq, anyCallsStatus_eq others]
termination_by sizeOf ts

end

mutual

theorem Like.eval_eq (keyed : context.Keyed) {t t' : Expr} (like : Like R t t') :
    eval context t = eval context t' := by
  cases like with
  | literal | context => rfl
  | @property object object' name name' like same =>
      simp only [eval, like.eval_eq keyed]
      cases evaluated : eval context object' with
      | error cause => rfl
      | ok target =>
          -- the keys differ here, so it takes a target that does not tell them apart
          have agree := property_congr (keyed_of_eval keyed object' evaluated) (R.folds same)
          exact congrArg Except.ok agree
  | index object key => rw [eval, eval, object.eval_eq keyed, key.eval_eq keyed]
  | not operand => rw [eval, eval, operand.eval_eq keyed]
  | logical left right => rw [eval, eval, left.eval_eq keyed, right.eval_eq keyed]
  | comparison left right => rw [eval, eval, left.eval_eq keyed, right.eval_eq keyed]
  | call arguments => rw [eval, eval, evalAll_eq keyed arguments]
termination_by sizeOf t

theorem evalAll_eq (keyed : context.Keyed) {ts ts' : List Expr}
    (likes : List.Forall₂ (Like R) ts ts') : evalAll context ts = evalAll context ts' := by
  cases likes with
  | nil => rfl
  | cons first others => rw [evalAll, evalAll, first.eval_eq keyed, evalAll_eq keyed others]
termination_by sizeOf ts

end

/-! ### Texts that differ in the case of names -/

theorem Alike.symm {ts ts' : List Token} (alike : Alike .anyCase ts ts') :
    Alike .anyCase ts' ts := by
  refine List.Forall₂.flip (alike.imp ?_)
  rintro ⟨lexeme, p⟩ ⟨lexeme', p'⟩ like
  cases lexeme <;> cases lexeme' <;> simp_all [Lexeme.Like, Spelling.anyCase, flip]

/-- Rows that correspond are parsed both or neither, to trees that correspond. -/
theorem parse_respell {a b : String} {ts ts' : List Token} {e : Expr}
    (tokens : tokenize a = .ok ts) (tokens' : tokenize b = .ok ts') (alike : Alike R ts' ts)
    (parsed : parse a = .ok e) : ∃ e', parse b = .ok e' ∧ Like R e' e := by
  obtain ⟨body, p, tokenized, derived⟩ := parse_eq_ok_iff_spells.mp parsed
  cases tokens.symm.trans tokenized
  simp (disch := simp) only [alike_append, alike_cons, alike_nil, Lexeme.like_other] at alike
  obtain ⟨body', _, rfl, alike, _, p', _, rfl, rfl, rfl⟩ := alike
  obtain ⟨e', derived', like⟩ := derived.respell alike
  exact ⟨e', parse_eq_ok_iff_spells.mpr ⟨body', p', tokens', derived'⟩, like⟩

/-- Texts whose tokens differ in the case of names only are parsed both or
    neither.  Their trees call the same functions, and have the same value or
    the same cause of an error in every context that does not tell names apart
    by their case. -/
theorem names_in_any_case {a b : String} {ts ts' : List Token} (tokens : tokenize a = .ok ts)
    (tokens' : tokenize b = .ok ts') (alike : Alike .anyCase ts ts') :
    ((∃ e, parse a = .ok e) ↔ ∃ e', parse b = .ok e') ∧
    ∀ e e', parse a = .ok e → parse b = .ok e' →
      callsStatus e = callsStatus e' ∧
      ∀ context : Context, context.Keyed →
        (∃ value, evaluate e context a = .ok value ∧ evaluate e' context b = .ok value) ∨
        ∃ cause, evaluate e context a = .error ⟨a, cause⟩ ∧
          evaluate e' context b = .error ⟨b, cause⟩ := by
  refine ⟨⟨?_, ?_⟩, ?_⟩
  · rintro ⟨e, parsed⟩
    obtain ⟨e', parsed', -⟩ := parse_respell tokens tokens' alike.symm parsed
    exact ⟨e', parsed'⟩
  · rintro ⟨e', parsed'⟩
    obtain ⟨e, parsed, -⟩ := parse_respell tokens' tokens alike parsed'
    exact ⟨e, parsed⟩
  · intro e e' parsed parsed'
    obtain ⟨_, again, like⟩ := parse_respell tokens' tokens alike parsed'
    cases parsed.symm.trans again
    refine ⟨like.callsStatus_eq, fun context keyed => ?_⟩
    rw [evaluate, evaluate, like.eval_eq keyed]
    cases eval context e' with
    | ok value => exact .inl ⟨value, rfl, rfl⟩
    | error cause => exact .inr ⟨cause, rfl, rfl⟩

theorem names_in_any_case_property :
    let ts : List Token := [⟨.identifier "Matrix", 0⟩, ⟨.punctuator .dot, 6⟩,
      ⟨.identifier "OS", 7⟩, ⟨.operator .or, 10⟩, ⟨.identifier "Always", 13⟩,
      ⟨.punctuator .openParen, 19⟩, ⟨.punctuator .closeParen, 20⟩, ⟨.finish, 21⟩]
    let ts' : List Token := [⟨.identifier "matrix", 0⟩, ⟨.punctuator .dot, 6⟩,
      ⟨.identifier "os", 7⟩, ⟨.operator .or, 10⟩, ⟨.identifier "ALWAYS", 13⟩,
      ⟨.punctuator .openParen, 19⟩, ⟨.punctuator .closeParen, 20⟩, ⟨.finish, 21⟩]
    let tree := fun name : String => Expr.logical .or
      (.index (.context "matrix") (.literal (.string name))) (.call "always" [])
    let context : Context := ⟨[("matrix", .map [1] [("Os", .text "linux"), ("arch", .text "x")])]⟩
    tokenize "Matrix.OS || Always()" = .ok ts ∧ tokenize "matrix.os || ALWAYS()" = .ok ts' ∧
      Alike .anyCase ts ts' ∧ context.Keyed ∧
      parse "Matrix.OS || Always()" = .ok (tree "OS") ∧
      parse "matrix.os || ALWAYS()" = .ok (tree "os") ∧
      callsStatus (tree "OS") = callsStatus (tree "os") ∧
      evaluate (tree "OS") context "Matrix.OS || Always()" = .ok (.text "linux") ∧
      evaluate (tree "os") context "matrix.os || ALWAYS()" = .ok (.text "linux") := by
  intro ts ts' tree context
  have tokens : tokenize "Matrix.OS || Always()" = .ok ts := by cbv
  have tokens' : tokenize "matrix.os || ALWAYS()" = .ok ts' := by cbv
  have matrix : Text.toLower "Matrix" = Text.toLower "matrix" := by cbv
  have os : Text.toLower "OS" = Text.toLower "os" := by cbv
  have always : Text.toLower "Always" = Text.toLower "ALWAYS" := by cbv
  have alike : Alike .anyCase ts ts' := by
    simp [Alike, ts, ts', Lexeme.Like, Spelling.anyCase, matrix, os, always]
  have keyed : context.Keyed := by
    refine .map (by simp [context]) (List.forall_mem_singleton.mpr (.map (by decide +kernel) ?_))
    simp [Value.Keyed.text]
  have parsed : parse "Matrix.OS || Always()" = .ok (tree "OS") := by cbv
  have parsed' : parse "matrix.os || ALWAYS()" = .ok (tree "os") := by cbv
  have value : evaluate (tree "OS") context "Matrix.OS || Always()" = .ok (.text "linux") := by cbv
  obtain ⟨calls, same⟩ := (names_in_any_case tokens tokens' alike).2 _ _ parsed parsed'
  refine ⟨tokens, tokens', alike, keyed, parsed, parsed', calls, value, ?_⟩
  rcases same context keyed with ⟨v, first, second⟩ | ⟨cause, failed, -⟩
  · cases value.symm.trans first
    exact second
  · cases value.symm.trans failed

end JobMatrix.Expr
