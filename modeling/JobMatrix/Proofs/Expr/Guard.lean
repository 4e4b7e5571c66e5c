import JobMatrix.Expr.Condition
import JobMatrix.Proofs.Expr.Embedding

/-! # The guard of a condition

A condition that asks for no status holds exactly when it holds behind a written
call of `success()`; and a condition that asks for nothing is that call.
-/

namespace JobMatrix.Expr

variable {s : String} {t : Expr} {context : Context} {condition : Option String}

/-! ### The expression of a condition -/

theorem parse_of_lex_error {cause : Cause} (failed : lex s.toList = .error cause) :
    parse s = .error ⟨s, cause⟩ := by
  unfold parse
  rw [failed]
  rfl

/-- No expression starts as a wrapped one does. -/
theorem parse_opening (rest : List Char) :
    parse (String.ofList (opening ++ rest)) =
      .error ⟨String.ofList (opening ++ rest), .unexpectedCharacter '$' 0⟩ := by
  refine parse_of_lex_error ?_
  rw [String.toList_ofList]
  exact lexFrom_error rfl rfl

theorem ne_empty_of_parse (parsed : parse s = .ok t) : s ≠ "" := by
  rintro rfl
  have : parse "" = .error ⟨"", .unexpectedEnd⟩ := by cbv
  rw [this] at parsed
  cases parsed

/-- Only blanks are stripped off an expression. -/
theorem stripWrapper_of_parse (parsed : parse s = .ok t) : stripWrapper s = Text.trim s := by
  have trimmed := parse_trim parsed
  have bare : enclosed? (Text.trimChars s.toList) = none := by
    unfold enclosed?
    split
    · rfl
    · next rest found =>
        rw [Text.trim, Text.dropStart?_eq_some.mp found, parse_opening] at trimmed
        cases trimmed
  unfold stripWrapper
  dsimp only
  rw [bare]
  rfl

def wrap (inner : List Char) : String :=
  String.ofList (opening ++ (inner ++ closing))

theorem trimChars_wrap (inner : List Char) :
    Text.trimChars (wrap inner).toList = (wrap inner).toList := by
  have ends : (wrap inner).toList = '$' :: ('\x7b' :: '\x7b' :: (inner ++ ['\x7d']) ++ ['\x7d']) := by
    simp [wrap, opening, closing]
  rw [ends, Text.trimChars_eq_self rfl rfl]

theorem dropStart?_wrap (inner : List Char) :
    Text.dropStart? opening (wrap inner).toList = some (inner ++ closing) := by
  rw [Text.dropStart?_eq_some, wrap, String.toList_ofList]

theorem enclosed?_wrap (inner : List Char) : enclosed? (wrap inner).toList = some inner := by
  have finish : Text.dropStart? closing.reverse (inner ++ closing).reverse = some inner.reverse := by
    rw [Text.dropStart?_eq_some, List.reverse_append]
  rw [enclosed?, dropStart?_wrap]
  dsimp only
  rw [finish, Option.map_some, List.reverse_reverse]

/-- A wrapper is stripped unless another one seems to open in it. -/
theorem stripWrapper_wrap (inner : List Char) :
    stripWrapper (wrap inner) =
      if Text.contains inner opening then wrap inner else String.ofList (Text.trimChars inner) := by
  unfold stripWrapper
  dsimp only
  rw [trimChars_wrap, enclosed?_wrap, String.ofList_toList]

theorem conditionText_of_parse (parsed : parse s = .ok t) :
    conditionText (some s) = Text.trim s :=
  stripWrapper_of_parse parsed

theorem holds_of_parse (parsed : parse (conditionText condition) = .ok t) :
    holds condition context =
      if callsStatus t = false ∧ context.hasStatus "success" = false then .ok false
      else (evaluate t context (conditionText condition)).map Value.isTruthy := by
  unfold holds
  rw [if_neg (ne_empty_of_parse parsed), parsed]
  simp only [bind, Except.bind, Bool.and_eq_true, Bool.not_eq_true']
  split
  · rfl
  · cases evaluate t context (conditionText condition) <;> rfl

theorem holds_of_empty (empty : conditionText condition = "") :
    holds condition context = .ok (context.hasStatus "success") := by
  unfold holds
  rw [if_pos empty]

/-! ### An expression behind the guard -/

def guarded (condition : String) : String :=
  "success() && (" ++ condition ++ ")"

theorem toList_guarded (condition : String) :
    (guarded condition).toList = "success() && ".toList ++ '(' :: (condition.toList ++ [')']) := by
  have opens : "success() && (".toList = "success() && ".toList ++ ['('] := by cbv
  unfold guarded
  rw [String.toList_append, String.toList_append, opens, List.append_assoc, List.append_assoc]
  rfl

theorem toLower_success : Text.toLower "success" = "success" := by
  cbv

theorem parse_guarded (parsed : parse s = .ok t) :
    parse (guarded s) = .ok (.logical .and (.call "success" []) t) := by
  have lexed : lexFrom 0 none "success() && ".toList = .ok
      ([⟨.identifier "success", 0⟩, ⟨.punctuator .openParen, 7⟩, ⟨.punctuator .closeParen, 8⟩,
        ⟨.operator .and, 10⟩] ++ [⟨.finish, 13⟩]) := by
    cbv
  obtain ⟨last, scans⟩ := scans_of_lexFrom lexed
  rw [← String.ofList_toList (s := s)] at parsed
  obtain ⟨operand, _, _, behind, primary⟩ := scans_paren parsed 13 last
  have whole := (scans.append rfl ⟨rfl, by decide⟩ (s.toList ++ [')'])).trans behind
  have call : Primary [⟨.identifier "success", 0⟩, ⟨.punctuator .openParen, 7⟩,
      ⟨.punctuator .closeParen, 8⟩] (.call "success" []) := by
    rw [← toLower_success]
    exact .call .none
  have derived := Joined.join (p := 10) (.operand (call.operand .and)) (primary.operand .and) .and
  have read := parse_of_scans whole (.operand (.or derived))
  dsimp only at read
  rwa [← toList_guarded, String.ofList_toList] at read

theorem eval_success (context : Context) :
    eval context (.call "success" []) = .ok (.bool (context.hasStatus "success")) := by
  rw [eval, evalAll]
  rfl

theorem eval_guarded (context : Context) (t : Expr) :
    eval context (.logical .and (.call "success" []) t) =
      if context.hasStatus "success" then eval context t else .ok (.bool false) := by
  rw [eval, eval_success]
  cases context.hasStatus "success" with
  | false => rfl
  | true => simp [bind, Except.bind, Value.isTruthy]

theorem conditionText_guarded (parsed : parse s = .ok t) :
    conditionText (some (guarded s)) = guarded s := by
  have ends : (guarded s).toList = 's' :: ("uccess() && (".toList ++ s.toList ++ [')']) := by
    rw [toList_guarded]
    simp
  rw [conditionText_of_parse (parse_guarded parsed), Text.trim, ends,
    Text.trimChars_eq_self rfl rfl, ← ends, String.ofList_toList]

/-- The guard in the code, on a condition that leaves it there. -/
theorem holds_of_unguarded (parsed : parse s = .ok t) (calls : callsStatus t = false) :
    holds (some s) context =
      if context.hasStatus "success" then (evaluate t context (Text.trim s)).map Value.isTruthy
      else .ok false := by
  have text := conditionText_of_parse parsed
  rw [holds_of_parse (text ▸ parse_trim parsed), text]
  cases context.hasStatus "success" <;> simp [calls]

theorem holds_guarded (parsed : parse s = .ok t) :
    holds (some (guarded s)) context =
      if context.hasStatus "success" then (evaluate t context (guarded s)).map Value.isTruthy
      else .ok false := by
  have text := conditionText_guarded parsed
  have calls : callsStatus (.logical .and (.call "success" []) t) = true := by
    simp [callsStatus, statusFunctions]
  rw [holds_of_parse (text ▸ parse_guarded parsed), text, if_neg (by simp [calls]), evaluate,
    eval_guarded]
  cases context.hasStatus "success" <;> rfl

/-! ### Conditions that ask for nothing -/

theorem holds_success (context : Context) :
    holds (some "success()") context = .ok (context.hasStatus "success") := by
  have parsed : parse (conditionText (some "success()")) = .ok (.call "success" []) := by cbv
  rw [holds_of_parse parsed, if_neg (by simp [callsStatus, statusFunctions]), evaluate, eval_success]
  rfl

theorem conditionText_blank {gap : List Char} (blank : ∀ c ∈ gap, Text.isBlank c = true) :
    conditionText (some (wrap gap)) = "" := by
  have clear : Text.contains gap opening = false := by
    rw [Bool.eq_false_iff, ne_eq, Text.contains_iff]
    intro occurs
    have isIn : '$' ∈ gap := occurs.subset (by decide)
    exact absurd (blank _ isIn) (by decide)
  rw [conditionText, stripWrapper_wrap, if_neg (by simp [clear]), Text.trimChars_eq_nil blank]

/-- A condition that calls no status function holds exactly where it holds
    behind a written call of `success()`, and fails exactly where it fails
    there; and a condition that is missing, empty or a wrapper around blanks
    holds exactly where that call does. -/
theorem guard_implicit (context : Context) :
    (∀ s t, parse s = .ok t → callsStatus t = false →
      (∃ verdict, holds (some s) context = .ok verdict ∧
          holds (some (guarded s)) context = .ok verdict) ∨
        ∃ cause, holds (some s) context = .error ⟨Text.trim s, cause⟩ ∧
          holds (some (guarded s)) context = .error ⟨guarded s, cause⟩) ∧
      holds none context = holds (some "success()") context ∧
      holds (some "") context = holds (some "success()") context ∧
      ∀ gap : List Char, (∀ c ∈ gap, Text.isBlank c = true) →
        holds (some (wrap gap)) context = holds (some "success()") context := by
  refine ⟨fun s t parsed calls => ?_, ?_, ?_, fun gap blank => ?_⟩
  · rw [holds_of_unguarded parsed calls, holds_guarded parsed]
    cases context.hasStatus "success" with
    | false => exact .inl ⟨false, rfl, rfl⟩
    | true =>
        simp only [if_true, evaluate]
        cases eval context t with
        | ok value => exact .inl ⟨value.isTruthy, rfl, rfl⟩
        | error cause => exact .inr ⟨cause, rfl, rfl⟩
  · rw [holds_success, holds_of_empty rfl]
  · rw [holds_success, holds_of_empty (by cbv)]
  · rw [holds_success, holds_of_empty (conditionText_blank blank)]

def successful : Context :=
  ⟨[("job", .map [] [("status", .text "success")])]⟩

theorem guard_implicit_unknown_context :
    parse "nowhere.name" = .ok (.index (.context "nowhere") (.literal (.string "name"))) ∧
      callsStatus (.index (.context "nowhere") (.literal (.string "name"))) = false ∧
      (∃ cause,
        holds (some "nowhere.name") successful = .error ⟨"nowhere.name", cause⟩ ∧
          holds (some "success() && (nowhere.name)") successful =
            .error ⟨"success() && (nowhere.name)", cause⟩) ∧
      (∀ c ∈ [' '], Text.isBlank c = true) ∧
      holds (some (wrap [' '])) successful = .ok true := by
  have parsed : parse "nowhere.name" =
      .ok (.index (.context "nowhere") (.literal (.string "name"))) := by cbv
  have calls : callsStatus (.index (.context "nowhere") (.literal (.string "name"))) = false := rfl
  have blank : ∀ c ∈ [' '], Text.isBlank c = true :=
    List.forall_mem_singleton.mpr Text.isBlank_space
  obtain ⟨unguarded, -, -, gaps⟩ := guard_implicit successful
  refine ⟨parsed, calls, ?_, blank, (gaps _ blank).trans (holds_success _)⟩
  rcases unguarded _ _ parsed calls with ⟨verdict, plain, -⟩ | failed
  · have fails : holds (some "nowhere.name") successful =
        .error ⟨"nowhere.name", .unknownContext "nowhere"⟩ := by cbv
    rw [fails] at plain
    cases plain
  · exact failed

end JobMatrix.Expr
