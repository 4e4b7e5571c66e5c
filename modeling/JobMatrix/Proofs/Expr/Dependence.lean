import JobMatrix.Proofs.Expr.Wrapper
import JobMatrix.Proofs.Success
import JobMatrix.Run.Context
import Mathlib

/-! # What an expression sees

Of its context an expression sees the values of the contexts that it names, and
the status of the job if it calls a function that reads it.  So an expression
that does neither means the same at every status, which is why a policy may be
evaluated before the job has one, and a condition skipped where the job has
failed.
-/

namespace JobMatrix.Expr

mutual

def contextNames : Expr → List String
  | literal _ => []
  | .context name => [name]
  | index object key => contextNames object ++ contextNames key
  | not operand => contextNames operand
  | logical _ left right => contextNames left ++ contextNames right
  | comparison _ left right => contextNames left ++ contextNames right
  | call _ arguments => allContextNames arguments

def allContextNames : List Expr → List String
  | [] => []
  | e :: rest => contextNames e ++ allContextNames rest

end

def Context.value (context : Context) (name : String) : Value :=
  (context.lookup name).getD .null

variable {c c' : Context}

theorem eval_context (c : Context) (name : String) :
    eval c (.context name) =
      match c.value name with
      | .null => .error (.unknownContext name)
      | value => .ok value := by
  rw [eval, Context.value]
  cases c.lookup name with
  | none => rfl
  | some value => cases value <;> rfl

/-- Only the functions that read the status look at the context. -/
theorem apply_congr {name : String} (status : name ∈ statusFunctions → c.status? = c'.status?)
    (arguments : List Value) : apply c name arguments = apply c' name arguments := by
  by_cases reads : name ∈ statusFunctions
  · simp only [apply, Context.hasStatus, status reads]
  · simp only [statusFunctions, List.mem_cons, List.not_mem_nil, or_false, not_or] at reads
    obtain ⟨notCancelled, notSuccess, notFailure, -⟩ := reads
    unfold apply
    split
    all_goals first | rfl | contradiction

mutual

theorem eval_congr : (e : Expr) → (∀ n ∈ contextNames e, c.value n = c'.value n) →
    (callsStatus e = true → c.status? = c'.status?) → eval c e = eval c' e
  | literal _, _, _ => rfl
  | .context name, names, _ => by
      rw [eval_context, eval_context, names name List.mem_cons_self]
  | index object key, names, status => by
      rw [contextNames, List.forall_mem_append] at names
      simp only [callsStatus, Bool.or_eq_true] at status
      rw [eval, eval, eval_congr object names.1 (fun calls => status (.inl calls)),
        eval_congr key names.2 (fun calls => status (.inr calls))]
  | not operand, names, status => by
      simp only [contextNames] at names
      simp only [callsStatus] at status
      rw [eval, eval, eval_congr operand names status]
  | logical op left right, names, status => by
      rw [contextNames, List.forall_mem_append] at names
      simp only [callsStatus, Bool.or_eq_true] at status
      rw [eval, eval, eval_congr left names.1 (fun calls => status (.inl calls)),
        eval_congr right names.2 (fun calls => status (.inr calls))]
  | comparison op left right, names, status => by
      rw [contextNames, List.forall_mem_append] at names
      simp only [callsStatus, Bool.or_eq_true] at status
      rw [eval, eval, eval_congr left names.1 (fun calls => status (.inl calls)),
        eval_congr right names.2 (fun calls => status (.inr calls))]
  | call name arguments, names, status => by
      simp only [contextNames] at names
      simp only [callsStatus, Bool.or_eq_true, List.contains_iff_mem] at status
      have applies : apply c name = apply c' name :=
        funext (apply_congr fun reads => status (.inl reads))
      rw [eval, eval, evalAll_congr arguments names (fun calls => status (.inr calls)), applies]

theorem evalAll_congr : (es : List Expr) → (∀ n ∈ allContextNames es, c.value n = c'.value n) →
    (anyCallsStatus es = true → c.status? = c'.status?) → evalAll c es = evalAll c' es
  | [], _, _ => rfl
  | e :: rest, names, status => by
      rw [allContextNames, List.forall_mem_append] at names
      simp only [anyCallsStatus, Bool.or_eq_true] at status
      rw [evalAll, evalAll, eval_congr e names.1 (fun calls => status (.inl calls)),
        evalAll_congr rest names.2 (fun calls => status (.inr calls))]

end

/-! ### Templates -/

def Embeds (template : String) (e : Expr) : Prop :=
  ∃ source, Segment.expression source ∈ segments template.toList ∧
    parse (String.ofList (Text.trimChars source)) = .ok e

theorem forall_embeds {template : String} {parts : List Segment} {P : Expr → Prop}
    (same : segments template.toList = parts)
    (each : ∀ source, Segment.expression source ∈ parts →
      ∃ e, parse (String.ofList (Text.trimChars source)) = .ok e ∧ P e) :
    ∀ e, Embeds template e → P e := by
  rintro e ⟨source, member, parsed⟩
  obtain ⟨e', parsed', holds⟩ := each source (same ▸ member)
  cases parsed.symm.trans parsed'
  exact holds

theorem renderAll_congr {parts : List Segment}
    (same : ∀ source e, Segment.expression source ∈ parts →
      parse (String.ofList (Text.trimChars source)) = .ok e → eval c e = eval c' e) :
    renderAll c parts = renderAll c' parts := by
  induction parts with
  | nil => rfl
  | cons part rest ih =>
      have behind := ih fun source e member => same source e (List.mem_cons_of_mem part member)
      cases part with
      | char a =>
          rw [renderAll, renderAll, behind]
          rfl
      | expression source =>
          have first : (Segment.expression source).render c = (Segment.expression source).render c' := by
            cases parsed : parse (String.ofList (Text.trimChars source)) with
            | error error => rw [render_of_parse_error parsed, render_of_parse_error parsed]
            | ok e =>
                rw [render_of_parse c parsed, render_of_parse c' parsed, evaluate, evaluate,
                  same source e List.mem_cons_self parsed]
          rw [renderAll, renderAll, first, behind]

/-- A template sees of its context what its expressions see. -/
theorem interpolate_congr {template : String}
    (same : ∀ e, Embeds template e → eval c e = eval c' e) :
    interpolate template c = interpolate template c' := by
  rw [interpolate_eq, interpolate_eq,
    renderAll_congr fun source e member parsed => same e ⟨source, member, parsed⟩]

/-- The expressions of a template read no other contexts than these, and call no
    function that reads the status. -/
def ReadsOnly (names : List String) (template : String) : Prop :=
  ∀ e, Embeds template e → contextNames e ⊆ names ∧ callsStatus e = false

theorem ReadsOnly.interpolate_eq {names : List String} {template : String}
    (reads : ReadsOnly names template) (same : ∀ n ∈ names, c.value n = c'.value n) :
    interpolate template c = interpolate template c' := by
  apply interpolate_congr
  intro e embeds
  obtain ⟨known, quiet⟩ := reads e embeds
  apply eval_congr e
  · intro n named
    exact same n (known named)
  · intro calls
    rw [quiet] at calls
    contradiction

theorem interpolateEntries_congr {entries : List (String × String)}
    (same : ∀ entry ∈ entries, interpolate entry.2 c = interpolate entry.2 c') :
    interpolateEntries c entries = interpolateEntries c' entries := by
  induction entries with
  | nil => rfl
  | cons entry rest ih =>
      rw [List.forall_mem_cons] at same
      rw [interpolateEntries, interpolateEntries, same.1, ih same.2]

theorem interpolateEntries_spec {entries texts : List (String × String)}
    (h : interpolateEntries c entries = .ok texts) :
    texts.map Prod.fst = entries.map Prod.fst ∧
      ∀ key template, Entries.get? key entries = some template →
        ∃ text, interpolate template c = .ok text ∧ Entries.get? key texts = some text := by
  induction entries generalizing texts with
  | nil =>
      cases h
      exact ⟨rfl, nofun⟩
  | cons entry rest ih =>
      obtain ⟨first, template⟩ := entry
      obtain ⟨text, filled, h⟩ := exists_of_bind_eq_ok h
      obtain ⟨others, more, h⟩ := exists_of_bind_eq_ok h
      cases h
      obtain ⟨keys, behind⟩ := ih more
      refine ⟨congrArg (first :: ·) keys, fun key template' found => ?_⟩
      by_cases here : first = key
      · rw [Entries.get?, if_pos here] at found
        cases found
        exact ⟨text, filled, by rw [Entries.get?, if_pos here]⟩
      · rw [Entries.get?, if_neg here] at found
        rw [Entries.get?, if_neg here]
        exact behind key template' found

theorem get?_of_interpolateDict {templates texts : Dict String}
    (h : interpolateDict templates c = .ok texts) {key template : String}
    (found : templates.get? key = some template) :
    ∃ text, interpolate template c = .ok text ∧ texts.get? key = some text := by
  obtain ⟨entries, filled, h⟩ := exists_of_bind_eq_ok h
  cases h
  obtain ⟨keys, each⟩ := interpolateEntries_spec filled
  obtain ⟨text, same, written⟩ := each key template found
  have nodup : (entries.map Prod.fst).Nodup := keys ▸ templates.nodup
  exact ⟨text, same, (Dict.get?_ofList nodup key).trans written⟩

/-! ### Members that are not named -/

/-- A lookup passes over a member of another name, whatever its value. -/
theorem lookup_append_cons_of_ne {name key : String} (other : Text.toLower name ≠ Text.toLower key)
    (before after : List (String × Value)) (v v' : Value) :
    Value.lookup name (before ++ (key, v) :: after) =
      Value.lookup name (before ++ (key, v') :: after) := by
  have notSpelled : (key == name) = false := by
    rw [beq_eq_false_iff_ne]
    rintro rfl
    exact other rfl
  have notFolded : (Text.toLower key == Text.toLower name) = false :=
    beq_eq_false_iff_ne.2 other.symm
  simp only [Value.lookup, List.find?_append, List.find?_cons, notSpelled, notFolded]

theorem value_append_job {name : String} (other : Text.toLower name ≠ "job")
    (before after : List (String × Value)) (v v' : Value) :
    Context.value ⟨before ++ ("job", v) :: after⟩ name =
      Context.value ⟨before ++ ("job", v') :: after⟩ name := by
  have lower : Text.toLower "job" = "job" := by cbv
  unfold Context.value Context.lookup
  rw [lookup_append_cons_of_ne (lower ▸ other) before after v v']

/-- An expression is determined by the values of the contexts that it names,
    and by the status if it calls a function that reads it.  If it does
    neither, the member `job` of its context makes no difference to it. -/
theorem evaluate_determined (e : Expr) (source : String) :
    (∀ c c' : Context, (∀ n ∈ contextNames e, c.value n = c'.value n) →
      (callsStatus e = true → c.status? = c'.status?) →
      evaluate e c source = evaluate e c' source) ∧
    (callsStatus e = false → (∀ n ∈ contextNames e, Text.toLower n ≠ "job") →
      (∀ before after v v', evaluate e ⟨before ++ ("job", v) :: after⟩ source =
        evaluate e ⟨before ++ ("job", v') :: after⟩ source) ∧
      ∀ (j : JobContext) (s : JobStatus), evaluate e { j with status := s }.toContext source =
        evaluate e j.toContext source) := by
  have determined : ∀ c c' : Context, (∀ n ∈ contextNames e, c.value n = c'.value n) →
      (callsStatus e = true → c.status? = c'.status?) →
      evaluate e c source = evaluate e c' source := by
    intro c c' names status
    rw [evaluate, evaluate, eval_congr e names status]
  refine ⟨determined, fun quiet others => ?_⟩
  have unseen : ∀ before after v v', evaluate e ⟨before ++ ("job", v) :: after⟩ source =
      evaluate e ⟨before ++ ("job", v') :: after⟩ source := by
    intro before after v v'
    apply determined
    · intro n named
      exact value_append_job (others n named) before after v v'
    · intro calls
      rw [quiet] at calls
      contradiction
  refine ⟨unseen, fun j s => ?_⟩
  exact unseen (j.toContext.members.take 3) (j.toContext.members.drop 4) _ _

theorem evaluate_determined_failed :
    let name := Expr.index (.context "matrix") (.literal (.string "os"))
    let guarded := Expr.logical .and (.call "success" []) name
    let c : Context := ⟨[("job", .map [0] [("status", .text "failure")]),
      ("matrix", .map [1] [("os", .text "linux")]), ("env", .map [2] [("A", .text "1")])]⟩
    let c' : Context := ⟨[("job", .map [0] [("status", .text "failure"), ("id", .text "j")]),
      ("MATRIX", .map [1] [("os", .text "linux")])]⟩
    let j : JobContext := .start (Dict.ofList [("os", .text "linux")]) Dict.empty "Linux"
    c.value "matrix" = c'.value "matrix" ∧ c.status? = c'.status? ∧
      callsStatus guarded = true ∧ evaluate guarded c "" = evaluate guarded c' "" ∧
      callsStatus name = false ∧ contextNames name = ["matrix"] ∧
      evaluate name { j with status := .failure }.toContext "" = .ok (.text "linux") := by
  intro name guarded c c' j
  have value : c.value "matrix" = c'.value "matrix" := by cbv
  have status : c.status? = c'.status? := by cbv
  have agree : ∀ n ∈ contextNames guarded, c.value n = c'.value n := by
    intro n named
    obtain rfl := List.mem_singleton.1 named
    exact value
  have others : ∀ n ∈ contextNames name, Text.toLower n ≠ "job" := by
    intro n named
    obtain rfl := List.mem_singleton.1 named
    have lower : Text.toLower "matrix" = "matrix" := by cbv
    rw [lower]
    decide
  refine ⟨value, status, by cbv, (evaluate_determined guarded "").1 c c' agree (fun _ => status),
    by cbv, by cbv, ?_⟩
  rw [((evaluate_determined name "").2 (by cbv) others).2 j .failure]
  cbv

end JobMatrix.Expr
