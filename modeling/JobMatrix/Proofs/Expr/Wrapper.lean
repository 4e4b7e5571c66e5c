import JobMatrix.Plan.Basic
import JobMatrix.Proofs.Expr.Guard

/-! # Expressions in the wrapper

Conditions and templates find the wrapper by its characters, and look for them
inside quoted texts as well.  A condition means the same in the wrapper and
without it unless one of its quoted texts holds what opens the wrapper; a
template reads an expression whole unless one of them holds what closes it.
-/

namespace JobMatrix.Expr

variable {a b s : String} {t : Expr} {context : Context} {error : Error}

def wrapped (s : String) : String :=
  wrap (' ' :: (s.toList ++ [' ']))

theorem trimChars_spaces (cs : List Char) :
    Text.trimChars (' ' :: (cs ++ [' '])) = Text.trimChars cs := by
  have blank : ∀ c ∈ [' '], Text.isBlank c = true :=
    List.forall_mem_singleton.mpr Text.isBlank_space
  exact Text.trimChars_pad blank blank

/-! ### Conditions -/

/-- Two texts are the same condition and the same failure policy. -/
structure Agree (a b : String) : Prop where
  holds (context : Context) : holds (some a) context = holds (some b) context
  overridesStatus : overridesStatus (some a) = overridesStatus (some b)
  policy (context : Context) :
    Plan.policy (.expression a) context = Plan.policy (.expression b) context

/-- A text fails as a condition and as a failure policy. -/
structure Fails (a : String) (error : Error) : Prop where
  holds (context : Context) : holds (some a) context = .error error
  overridesStatus : overridesStatus (some a) = .error error
  policy (context : Context) : Plan.policy (.expression a) context = .error error

/-- Nothing but the expression that is stripped out of a text matters. -/
theorem Agree.of_stripWrapper (same : stripWrapper a = stripWrapper b) : Agree a b := by
  have text : conditionText (some a) = conditionText (some b) := same
  constructor
  · intro context
    simp only [Expr.holds, text]
  · simp only [Expr.overridesStatus, text]
  · intro context
    simp only [Plan.policy, same]

theorem Fails.of_parse (failed : parse (stripWrapper a) = .error error)
    (some : stripWrapper a ≠ "") : Fails a error := by
  have text : conditionText (.some a) = stripWrapper a := rfl
  constructor
  · intro context
    simp only [Expr.holds, text, if_neg some, failed, bind, Except.bind]
  · simp only [Expr.overridesStatus, text, if_neg some, failed, bind, Except.bind]
  · intro context
    simp only [Plan.policy, evaluateText, if_neg some, failed, bind, Except.bind]

theorem overridesStatus_of_parse (parsed : parse s = .ok t) :
    overridesStatus (some s) = .ok (callsStatus t) := by
  have trimmed := parse_trim parsed
  simp only [overridesStatus, conditionText_of_parse parsed, if_neg (ne_empty_of_parse trimmed),
    trimmed, bind, Except.bind, pure, Except.pure]

theorem stripWrapper_wrapped (s : String) :
    stripWrapper (wrapped s) =
      if Text.contains s.toList opening then wrapped s else Text.trim s := by
  have same : Text.contains (' ' :: (s.toList ++ [' '])) opening = Text.contains s.toList opening := by
    rw [Bool.eq_iff_iff, Text.contains_iff, Text.contains_iff,
      Text.infix_pad_of_notMem (by decide)]
  rw [wrapped, stripWrapper_wrap, same, trimChars_spaces]
  rfl

/-- An expression that opens no wrapper in a quoted text is the same condition
    in the wrapper and without it; any other one fails in the wrapper, which is
    then not stripped. -/
theorem wrapped_agrees_iff (parsed : parse s = .ok t) :
    (Agree (wrapped s) s ↔ Text.contains s.toList opening = false) ∧
      (Text.contains s.toList opening = true →
        Fails (wrapped s) ⟨wrapped s, .unexpectedCharacter '$' 0⟩) := by
  have fails (opens : Text.contains s.toList opening = true) :
      Fails (wrapped s) ⟨wrapped s, .unexpectedCharacter '$' 0⟩ := by
    have kept : stripWrapper (wrapped s) = wrapped s := by
      rw [stripWrapper_wrapped, if_pos opens]
    have failed : parse (wrapped s) = .error ⟨wrapped s, .unexpectedCharacter '$' 0⟩ :=
      parse_opening _
    refine .of_parse (by rw [kept, failed]) ?_
    rw [kept, wrapped, wrap, ne_eq, ← String.toList_inj]
    simp [opening]
  refine ⟨⟨fun agree => ?_, fun clear => ?_⟩, fails⟩
  · rw [Bool.eq_false_iff]
    intro opens
    have plain := agree.overridesStatus
    rw [(fails opens).overridesStatus, overridesStatus_of_parse parsed] at plain
    cases plain
  · apply Agree.of_stripWrapper
    rw [stripWrapper_wrapped, if_neg (by simp [clear]), stripWrapper_of_parse parsed]

theorem wrapped_agrees_iff_always :
    parse "always()" = .ok (.call "always" []) ∧
      wrapped "always()" = "$\x7b\x7b always() \x7d\x7d" ∧
      Text.contains "always()".toList opening = false ∧
      Agree "$\x7b\x7b always() \x7d\x7d" "always()" := by
  have parsed : parse "always()" = .ok (.call "always" []) := by cbv
  have text : wrapped "always()" = "$\x7b\x7b always() \x7d\x7d" := by cbv
  have clear : Text.contains "always()".toList opening = false := by cbv
  exact ⟨parsed, text, clear, text ▸ (wrapped_agrees_iff parsed).1.mpr clear⟩

theorem wrapped_disagrees_on_opening :
    parse "'$\x7b\x7b'" = .ok (.literal (.string "$\x7b\x7b")) ∧
      wrapped "'$\x7b\x7b'" = "$\x7b\x7b '$\x7b\x7b' \x7d\x7d" ∧
      holds (some "'$\x7b\x7b'") successful = .ok true ∧
      holds (some "$\x7b\x7b '$\x7b\x7b' \x7d\x7d") successful =
        .error ⟨"$\x7b\x7b '$\x7b\x7b' \x7d\x7d", .unexpectedCharacter '$' 0⟩ ∧
      overridesStatus (some "'$\x7b\x7b'") = .ok false ∧
      Plan.policy (.expression "'$\x7b\x7b'") successful = .ok .tolerant := by
  refine ⟨?_, ?_, ?_, ?_, ?_, ?_⟩ <;> cbv

/-! ### Templates -/

theorem segments_of_expressionAt? {cs source after : List Char}
    (found : expressionAt? cs = some (source, after)) :
    segments cs = .expression source :: segments after := by
  cases cs with
  | nil => cases found
  | cons c rest =>
      rw [segments]
      split <;> simp_all

theorem renderAll_error {cause : Error} {segment : Segment} {rest : List Segment}
    (failed : segment.render context = .error cause) :
    renderAll context (segment :: rest) = .error cause := by
  rw [renderAll, failed]
  rfl

theorem renderAll_singleton (segment : Segment) :
    renderAll context [segment] = segment.render context := by
  rw [renderAll, renderAll]
  cases segment.render context with
  | ok text => simp [bind, Except.bind, pure, Except.pure]
  | error => rfl

theorem interpolate_eq (template : String) (context : Context) :
    interpolate template context =
      (renderAll context (segments template.toList)).map String.ofList := by
  unfold interpolate
  cases renderAll context (segments template.toList) <;> rfl

theorem render_of_parse {source : List Char} (context : Context)
    (parsed : parse (String.ofList (Text.trimChars source)) = .ok t) :
    (Segment.expression source).render context =
      (evaluate t context (String.ofList (Text.trimChars source))).map (·.toText.toList) := by
  rw [Segment.render, evaluateText, parsed]
  simp only [bind, Except.bind]
  cases evaluate t context (String.ofList (Text.trimChars source)) <;> rfl

theorem render_of_parse_error {source : List Char}
    (failed : parse (String.ofList (Text.trimChars source)) = .error error) :
    (Segment.expression source).render context = .error error := by
  rw [Segment.render, evaluateText, failed]
  rfl

theorem expressionAt?_wrap {inner before after : List Char}
    (found : Text.breakAt? closing (inner ++ closing) = some (before, after)) :
    expressionAt? (wrap inner).toList = some (before, after) := by
  rw [expressionAt?, dropStart?_wrap, Option.bind_some, found]

theorem expressionAt?_wrapped_append (clear : Text.contains s.toList closing = false)
    (rest : List Char) :
    expressionAt? ((wrapped s).toList ++ rest) = some (' ' :: (s.toList ++ [' ']), rest) := by
  have fresh : ¬ closing <:+: ' ' :: s.toList := by
    rw [Text.infix_cons_of_notMem (by decide), ← Text.contains_eq_false_iff, clear]
  have outside : ' ' ∉ closing := by decide
  have found := @Text.breakAt?_of_not_infix _ _ rest _ fresh outside
  have opened : Text.dropStart? opening ((wrapped s).toList ++ rest) =
      some (' ' :: s.toList ++ ' ' :: (closing ++ rest)) := by
    rw [Text.dropStart?_eq_some]
    simp [wrapped, wrap]
  rw [expressionAt?, opened, Option.bind_some, found]
  rfl

theorem expressionAt?_wrapped (clear : Text.contains s.toList closing = false) :
    expressionAt? (wrapped s).toList = some (' ' :: (s.toList ++ [' ']), []) := by
  simpa using expressionAt?_wrapped_append clear []

theorem expressionAt?_wrapped_cut {before after : List Char}
    (found : Text.breakAt? closing s.toList = some (before, after)) :
    expressionAt? (wrapped s).toList = some (' ' :: before, after ++ ' ' :: closing) := by
  have noStart (cs : List Char) : Text.dropStart? closing (' ' :: cs) = none := rfl
  apply expressionAt?_wrap
  rw [List.cons_append, Text.breakAt?_of_no_start (noStart _), List.append_assoc,
    Text.breakAt?_append found]
  rfl

/-- An expression that is cut where the lexer cannot go on is cut in a quoted
    text. -/
theorem lexFrom_cut {position : Nat} {last : Option Lexeme} {c : Char} {cs ys : List Char}
    {ts : List Token} (lexed : lexFrom position last (cs ++ c :: ys) = .ok ts) (stop : Separates c)
    (stuck : ∀ position last, ∃ cause, lexFrom position last (c :: ys) = .error cause) :
    ∃ p, lexFrom position last cs = .error (.unterminatedString p) := by
  cases alone : lexFrom position last cs with
  | ok ts' =>
      obtain ⟨body, p, last', scans, -⟩ := lexFrom_eq_ok_iff.mp alone
      have whole := (scans.append rfl stop ys).lexFrom_eq
      obtain ⟨cause, failed⟩ := stuck p last'
      dsimp only at whole
      rw [failed, lexed] at whole
      cases whole
  | error cause =>
      by_cases quoted : ∃ p, cause = .unterminatedString p
      · obtain ⟨p, rfl⟩ := quoted
        exact ⟨p, rfl⟩
      · have unclosed : (∃ p, cause = .unterminatedString p) → '\'' ∉ c :: ys :=
          fun isQuoted => absurd isQuoted quoted
        rw [lexFrom_append_error alone stop unclosed] at lexed
        cases lexed

/-- What stands before a closing brace of an expression ends in a quoted text. -/
theorem parse_cut {before after : List Char}
    (parsed : parse (String.ofList (before ++ '\x7d' :: after)) = .ok t) :
    ∃ position, parse (String.ofList (Text.trimChars before)) =
      .error ⟨String.ofList (Text.trimChars before), .unterminatedString position⟩ := by
  obtain ⟨lead, trail, blankLead, blankTrail, same⟩ := Text.exists_trimChars before
  have behind : before ++ '\x7d' :: after =
      lead ++ (Text.trimChars before ++ (trail ++ '\x7d' :: after)) := by
    conv => lhs; rw [same]
    simp only [List.append_assoc]
  rw [behind] at parsed
  obtain ⟨body, q, lexed, -⟩ := lexFrom_of_parse (parse_lead blankLead parsed)
  have stuck (position : Nat) (last : Option Lexeme) :
      ∃ cause, lexFrom position last (trail ++ '\x7d' :: after) = .error cause := by
    rw [lexFrom_lead blankTrail]
    exact ⟨_, lexFrom_error rfl rfl⟩
  obtain ⟨c, ys, first, stop⟩ : ∃ c ys, trail ++ '\x7d' :: after = c :: ys ∧ Separates c := by
    cases trail with
    | nil => exact ⟨_, _, rfl, rfl, by decide⟩
    | cons c trail => exact ⟨_, _, rfl, separates_of_isBlank (blankTrail c (by simp))⟩
  rw [first] at lexed stuck
  obtain ⟨position, failed⟩ := lexFrom_cut lexed stop stuck
  refine ⟨position, parse_of_lex_error ?_⟩
  rw [String.toList_ofList]
  exact failed

/-- An expression that closes no wrapper in a quoted text means in a template
    what it means on its own; any other one is cut there, and fails. -/
theorem interpolate_wrapped (parsed : parse s = .ok t) (context : Context) :
    (Text.contains s.toList closing = false →
      (∃ value, evaluate t context s = .ok value ∧
          interpolate (wrapped s) context = .ok value.toText) ∨
        ∃ cause, evaluate t context s = .error ⟨s, cause⟩ ∧
          interpolate (wrapped s) context = .error ⟨Text.trim s, cause⟩) ∧
      ∀ before after, Text.breakAt? closing s.toList = some (before, after) →
        ∃ position, interpolate (wrapped s) context =
          .error ⟨String.ofList (Text.trimChars before), .unterminatedString position⟩ := by
  refine ⟨fun clear => ?_, fun before after found => ?_⟩
  · have whole := segments_of_expressionAt? (expressionAt?_wrapped clear)
    have padded : String.ofList (Text.trimChars (' ' :: (s.toList ++ [' ']))) = Text.trim s := by
      rw [trimChars_spaces, Text.trim]
    have rendered := render_of_parse context (padded ▸ parse_trim parsed)
    rw [interpolate_eq, whole, segments, renderAll_singleton, rendered, padded]
    unfold evaluate
    cases eval context t with
    | ok value => exact .inl ⟨value, rfl, by simp [Except.map]⟩
    | error cause => exact .inr ⟨cause, rfl, rfl⟩
  · have cut := segments_of_expressionAt? (expressionAt?_wrapped_cut found)
    have padded : Text.trimChars (' ' :: before) = Text.trimChars before := by
      have blank : ∀ c ∈ [' '], Text.isBlank c = true :=
        List.forall_mem_singleton.mpr Text.isBlank_space
      simpa using @Text.trimChars_pad before [' '] [] blank (by simp)
    rw [← String.ofList_toList (s := s), Text.breakAt?_eq_some found] at parsed
    obtain ⟨position, failed⟩ := parse_cut parsed
    refine ⟨position, ?_⟩
    rw [interpolate_eq, cut, renderAll_error (render_of_parse_error (padded ▸ failed))]
    rfl

theorem interpolate_wrapped_brace :
    parse "'\x7d'" = .ok (.literal (.string "\x7d")) ∧
      Text.contains "'\x7d'".toList closing = false ∧
      interpolate "$\x7b\x7b '\x7d' \x7d\x7d" successful = .ok "\x7d" ∧
      Text.breakAt? closing "'a\x7d\x7d'".toList = some (['\'', 'a'], ['\'']) ∧
      ∃ position, interpolate "$\x7b\x7b 'a\x7d\x7d' \x7d\x7d" successful =
        .error ⟨"'a", .unterminatedString position⟩ := by
  have parsed : parse "'\x7d'" = .ok (.literal (.string "\x7d")) := by cbv
  have clear : Text.contains "'\x7d'".toList closing = false := by cbv
  have quoted : parse "'a\x7d\x7d'" = .ok (.literal (.string "a\x7d\x7d")) := by cbv
  have cut : Text.breakAt? closing "'a\x7d\x7d'".toList = some (['\'', 'a'], ['\'']) := by cbv
  refine ⟨parsed, clear, ?_, cut, (interpolate_wrapped quoted successful).2 _ _ cut⟩
  rcases (interpolate_wrapped parsed successful).1 clear with
    ⟨value, evaluated, interpolated⟩ | ⟨cause, failed, -⟩
  · cases evaluated
    exact interpolated
  · cases failed

theorem interpolate_cuts_at_closing :
    parse "'\x7d\x7d'" = .ok (.literal (.string "\x7d\x7d")) ∧
      evaluate (.literal (.string "\x7d\x7d")) successful "'\x7d\x7d'" = .ok (.text "\x7d\x7d") ∧
      wrapped "'\x7d\x7d'" = "$\x7b\x7b '\x7d\x7d' \x7d\x7d" ∧
      interpolate "$\x7b\x7b '\x7d\x7d' \x7d\x7d" successful =
        .error ⟨"'", .unterminatedString 0⟩ := by
  refine ⟨?_, ?_, ?_, ?_⟩ <;> cbv

end JobMatrix.Expr
