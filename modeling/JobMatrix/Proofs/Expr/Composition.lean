import JobMatrix.Proofs.Expr.Wrapper

/-! # Templates of several expressions

A template of plain texts with expressions between them is interpolated piece
by piece: each expression gives way to the text of its value, which is not
looked at again, and the plain texts stay as they are.
-/

namespace JobMatrix.Expr

variable {t rest : List Char} {s first : String} {context : Context}

/-! ### Where segments begin -/

/-- A text that does not open an expression does not begin to open one either,
    unless what follows starts with a brace. -/
theorem dropStart?_opening_append {c : Char} (plain : ¬ opening <+: c :: t)
    (apart : rest.head? ≠ some '\x7b') : Text.dropStart? opening (c :: t ++ rest) = none := by
  cases found : Text.dropStart? opening (c :: t ++ rest) with
  | none => rfl
  | some after =>
      rcases List.append_eq_append_iff.mp (Text.dropStart?_eq_some.mp found) with
        ⟨more, split, behind⟩ | ⟨more, split, -⟩
      · -- what is left of the opening would have to start with a brace
        obtain ⟨-, braces⟩ := List.cons.inj split
        cases more with
        | nil => exact absurd ⟨[], by simpa using split⟩ plain
        | cons d more =>
            have brace : d ∈ ['\x7b', '\x7b'] := braces ▸ by simp
            obtain rfl : d = '\x7b' := by simpa using brace
            rw [behind] at apart
            exact absurd rfl apart
      · exact absurd ⟨more, split.symm⟩ plain

theorem segments_append (plain : ¬ opening <:+: t) (apart : rest.head? ≠ some '\x7b') :
    segments (t ++ rest) = t.map .char ++ segments rest := by
  induction t with
  | nil => rfl
  | cons c t ih =>
      rw [List.infix_cons_iff, not_or] at plain
      have noStart := dropStart?_opening_append plain.1 apart
      rw [List.cons_append] at noStart ⊢
      rw [segments]
      split
      · next found =>
          rw [expressionAt?, noStart] at found
          cases found
      · rw [ih plain.2, List.map_cons, List.cons_append]

theorem segments_wrapped_append (whole : Text.contains s.toList closing = false) :
    segments ((wrapped s).toList ++ rest) =
      .expression (' ' :: (s.toList ++ [' '])) :: segments rest :=
  segments_of_expressionAt? (expressionAt?_wrapped_append whole rest)

/-! ### What segments become -/

theorem renderAll_chars_append (t : List Char) (more : List Segment) :
    renderAll context (t.map .char ++ more) = (renderAll context more).map (t ++ ·) := by
  induction t with
  | nil =>
      rw [List.map_nil, List.nil_append]
      cases renderAll context more <;> rfl
  | cons c t ih =>
      rw [List.map_cons, List.cons_append, renderAll, ih]
      cases renderAll context more <;> rfl

theorem render_hole {t : Expr} (parsed : parse s = .ok t) (context : Context) :
    (Segment.expression (' ' :: (s.toList ++ [' ']))).render context =
      (evaluate t context (Text.trim s)).map (·.toText.toList) := by
  have padded : String.ofList (Text.trimChars (' ' :: (s.toList ++ [' ']))) = Text.trim s := by
    rw [trimChars_spaces, Text.trim]
  rw [render_of_parse context (padded ▸ parse_trim parsed), padded]

/-! ### The pieces of a template -/

def spread (first : String) : List (String × String) → String
  | [] => first
  | (piece, behind) :: rest => first ++ (piece ++ spread behind rest)

/-- An expression of a template, and the plain text behind it. -/
structure Hole where
  source : String
  tree : Expr
  behind : String
  parsed : parse source = .ok tree
  whole : Text.contains source.toList closing = false
  plain : Text.contains behind.toList opening = false

def Hole.written (hole : Hole) : String × String :=
  (wrapped hole.source, hole.behind)

def Hole.filled (hole : Hole) (value : Value) : String × String :=
  (value.toText, hole.behind)

theorem interpolate_plain (plain : Text.contains first.toList opening = false) :
    interpolate first context = .ok first := by
  have alone : segments (first.toList ++ []) = first.toList.map .char ++ segments [] :=
    segments_append (Text.contains_eq_false_iff.mp plain) (by simp)
  rw [segments] at alone
  rw [interpolate_eq, ← List.append_nil first.toList, alone, renderAll_chars_append, renderAll]
  simp [Except.map]

theorem interpolate_hole (plain : Text.contains first.toList opening = false) (hole : Hole)
    (rest : String) :
    interpolate (first ++ (wrapped hole.source ++ rest)) context = (do
      let value ← evaluate hole.tree context (Text.trim hole.source)
      let more ← interpolate rest context
      return first ++ (value.toText ++ more)) := by
  have clear := Text.contains_eq_false_iff.mp plain
  have apart : ((wrapped hole.source).toList ++ rest.toList).head? ≠ some '\x7b' := by
    simp [wrapped, wrap, opening]
  rw [interpolate_eq, String.toList_append, String.toList_append, segments_append clear apart,
    segments_wrapped_append hole.whole, renderAll_chars_append, renderAll,
    render_hole hole.parsed, interpolate_eq]
  cases evaluate hole.tree context (Text.trim hole.source) with
  | error => rfl
  | ok value =>
      cases renderAll context (segments rest.toList) with
      | error => rfl
      | ok more => simp [Except.map, bind, Except.bind, pure, Except.pure]

/-! ### Whole templates -/

/-- A value does not depend on the text that names the expression in errors. -/
theorem evaluate_renamed {e : Expr} {a : String} {value : Value} (b : String)
    (evaluated : evaluate e context a = .ok value) : evaluate e context b = .ok value := by
  unfold evaluate at evaluated ⊢
  split at evaluated
  · exact evaluated
  · cases evaluated

theorem evaluate_error_renamed {e : Expr} {a : String} {cause : Cause} (b : String)
    (failed : evaluate e context a = .error ⟨a, cause⟩) :
    evaluate e context b = .error ⟨b, cause⟩ := by
  unfold evaluate at failed ⊢
  split at failed
  · cases failed
  · cases failed
    rfl

/-- A template is its plain texts, with the text of its value in the place of
    each expression.  It fails as the first of its expressions that fails. -/
theorem interpolate_spread (plain : Text.contains first.toList opening = false)
    (holes : List Hole) (context : Context) :
    (∀ values, List.Forall₂
        (fun hole value => evaluate hole.tree context hole.source = .ok value) holes values →
      interpolate (spread first (holes.map Hole.written)) context =
        .ok (spread first (List.zipWith Hole.filled holes values))) ∧
    ∀ before hole after cause, holes = before ++ hole :: after →
      (∀ earlier ∈ before, ∃ value,
        evaluate earlier.tree context earlier.source = .ok value) →
      evaluate hole.tree context hole.source = .error ⟨hole.source, cause⟩ →
      interpolate (spread first (holes.map Hole.written)) context =
        .error ⟨Text.trim hole.source, cause⟩ := by
  refine ⟨fun values evaluated => ?_, fun before hole after cause same earlier failed => ?_⟩
  · induction evaluated generalizing first with
    | nil => exact interpolate_plain plain
    | @cons hole value rest values evaluated _ ih =>
        rw [List.map_cons, Hole.written, spread, interpolate_hole plain,
          evaluate_renamed _ evaluated, ih hole.plain]
        rfl
  · subst same
    induction before generalizing first with
    | nil =>
        rw [List.nil_append, List.map_cons, Hole.written, spread, interpolate_hole plain,
          evaluate_error_renamed _ failed]
        rfl
    | cons next before ih =>
        obtain ⟨⟨value, evaluated⟩, others⟩ := List.forall_mem_cons.mp earlier
        rw [List.cons_append, List.map_cons, Hole.written, spread, interpolate_hole plain,
          evaluate_renamed _ evaluated, ih next.plain others]
        rfl

theorem interpolate_spread_nested :
    let context : Context :=
      ⟨[("env", .map [0] [("A", .text "$\x7b\x7b nowhere \x7d\x7d"), ("B", .text "b")])]⟩
    let outer : Hole := ⟨"env.A", .index (.context "env") (.literal (.string "A")), "$\x7b-",
      by cbv, by cbv, by cbv⟩
    let inner : Hole := ⟨"env.B", .index (.context "env") (.literal (.string "B")), "\x7d\x7d.",
      by cbv, by cbv, by cbv⟩
    let missing : Hole := ⟨"nowhere", .context "nowhere", "", by cbv, by cbv, by cbv⟩
    Text.contains "$$".toList opening = false ∧
      spread "$$" ([outer, inner].map Hole.written) =
        "$$$\x7b\x7b env.A \x7d\x7d$\x7b-$\x7b\x7b env.B \x7d\x7d\x7d\x7d." ∧
      interpolate (spread "$$" ([outer, inner].map Hole.written)) context =
        .ok "$$$\x7b\x7b nowhere \x7d\x7d$\x7b-b\x7d\x7d." ∧
      interpolate (spread "$$" ([outer, missing].map Hole.written)) context =
        .error ⟨"nowhere", .unknownContext "nowhere"⟩ := by
  intro context outer inner missing
  have plain : Text.contains "$$".toList opening = false := by cbv
  have first : evaluate outer.tree context outer.source =
      .ok (.text "$\x7b\x7b nowhere \x7d\x7d") := by cbv
  have second : evaluate inner.tree context inner.source = .ok (.text "b") := by cbv
  have failed : evaluate missing.tree context missing.source =
      .error ⟨missing.source, .unknownContext "nowhere"⟩ := by cbv
  refine ⟨plain, by cbv, ?_, ?_⟩
  · exact (interpolate_spread plain [outer, inner] context).1 _ (.cons first (.cons second .nil))
  · have trimmed : Text.trim missing.source = "nowhere" := by cbv
    rw [(interpolate_spread plain [outer, missing] context).2 [outer] missing [] _ rfl
      (List.forall_mem_singleton.mpr ⟨_, first⟩) failed, trimmed]

end JobMatrix.Expr
