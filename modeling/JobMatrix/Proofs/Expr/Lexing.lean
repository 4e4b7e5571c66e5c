import JobMatrix.Proofs.Expr.Parsing
import JobMatrix.Proofs.Expr.Scanning
import Mathlib

/-! # The lexer loses nothing

The tokens of a text write it again, up to the blanks between them; and lexemes
written with a space between each two are read back.  Both follow from what one
scan takes and from one law of the lexer: it reads a text on its own as it reads
it in front of a character that continues no lexeme.
-/

namespace JobMatrix.Expr

/-- Where the lexer stands: the offset, the lexeme before it, and the text
    behind it. -/
structure Place where
  position : Nat
  last : Option Lexeme
  text : List Char

/-- The lexer goes from one place to another and writes tokens on its way. -/
inductive Scans : Place → List Token → Place → Prop
  | done {here} : Scans here [] here
  | blank {position last c cs ts there} : Text.isBlank c = true →
      Scans ⟨position + Text.charSize c, last, cs⟩ ts there →
      Scans ⟨position, last, c :: cs⟩ ts there
  | lexeme {position last c cs lexeme count ts there} : Text.isBlank c = false →
      scan position last c cs = .ok (lexeme, count) →
      Scans ⟨position + Text.size lexeme.source, some lexeme, cs.drop count⟩ ts there →
      Scans ⟨position, last, c :: cs⟩ (⟨lexeme, position⟩ :: ts) there

variable {position position' count : Nat} {last last' : Option Lexeme} {b c : Char}
  {cs xs ys : List Char} {ts : List Token} {lexeme : Lexeme} {cause : Cause} {here there : Place}

theorem lexFrom_nil : lexFrom position last [] = .ok [⟨.finish, position⟩] := by
  rw [lexFrom]

theorem lexFrom_blank (blank : Text.isBlank c = true) :
    lexFrom position last (c :: cs) = lexFrom (position + Text.charSize c) last cs := by
  rw [lexFrom, if_pos blank]

theorem lexFrom_lexeme (noBlank : Text.isBlank c = false)
    (scanned : scan position last c cs = .ok (lexeme, count)) :
    lexFrom position last (c :: cs) =
      (lexFrom (position + Text.size lexeme.source) (some lexeme) (cs.drop count)).map
        (⟨lexeme, position⟩ :: ·) := by
  rw [lexFrom, if_neg (by simp [noBlank]), scanned, (scan_sound scanned).2.1, Text.size_cons]
  dsimp only
  split <;> simp_all [Except.map]

theorem lexFrom_error (noBlank : Text.isBlank c = false)
    (failed : scan position last c cs = .error cause) :
    lexFrom position last (c :: cs) = .error cause := by
  rw [lexFrom, if_neg (by simp [noBlank]), failed]

namespace Scans

theorem trans {between : Place} {ts' : List Token} (first : Scans here ts between)
    (second : Scans between ts' there) : Scans here (ts ++ ts') there := by
  induction first with
  | done => exact second
  | blank blank _ ih => exact .blank blank (ih second)
  | lexeme noBlank scanned _ ih => exact .lexeme noBlank scanned (ih second)

theorem lexFrom_eq (scans : Scans here ts there) :
    lexFrom here.position here.last here.text =
      (lexFrom there.position there.last there.text).map (ts ++ ·) := by
  induction scans with
  | @done here => cases lexFrom here.position here.last here.text <;> rfl
  | blank blank _ ih => rw [lexFrom_blank blank, ih]
  | @lexeme _ _ _ _ _ _ _ there noBlank scanned _ ih =>
      rw [lexFrom_lexeme noBlank scanned, ih]
      cases lexFrom there.position there.last there.text <;> rfl

/-- What follows behind a character that continues no lexeme changes nothing
    before it. -/
theorem append (scans : Scans here ts there) (ends : there.text = []) (stop : Separates b)
    (ys : List Char) :
    Scans ⟨here.position, here.last, here.text ++ b :: ys⟩ ts
      ⟨there.position, there.last, b :: ys⟩ := by
  induction scans with
  | done => rw [ends]; exact .done
  | blank blank _ ih => exact .blank blank (ih ends)
  | @lexeme _ _ _ cs _ count _ _ noBlank scanned _ ih =>
      refine .lexeme noBlank (scan_append stop scanned) ?_
      rw [List.append_eq, List.drop_append_of_le_length (scan_sound scanned).2.2.1]
      exact ih ends

/-- Neither the offset nor more than the end of an operand before a text
    matters to its lexemes. -/
theorem congr (scans : Scans here ts there)
    (same : here.last.any Lexeme.endsOperand = last.any Lexeme.endsOperand) (position : Nat) :
    ∃ ts' position' last', Scans ⟨position, last, here.text⟩ ts' ⟨position', last', there.text⟩ ∧
      ts'.map Token.lexeme = ts.map Token.lexeme := by
  induction scans generalizing position last with
  | done => exact ⟨[], _, _, .done, rfl⟩
  | blank blank _ ih =>
      obtain ⟨ts', _, _, scans, lexemes⟩ := ih same _
      exact ⟨ts', _, _, .blank blank scans, lexemes⟩
  | @lexeme _ _ _ _ lexeme _ _ _ noBlank scanned _ ih =>
      obtain ⟨ts', _, _, scans, lexemes⟩ := @ih (some lexeme) rfl (position + _)
      exact ⟨_, _, _, .lexeme noBlank (scan_congr same scanned) scans, by simp [lexemes]⟩

end Scans

/-- The lexer succeeds exactly where it can go to the end. -/
theorem lexFrom_eq_ok_iff :
    lexFrom position last cs = .ok ts ↔
      ∃ body position' last', Scans ⟨position, last, cs⟩ body ⟨position', last', []⟩ ∧
        ts = body ++ [⟨.finish, position'⟩] := by
  constructor
  · intro h
    fun_induction lexFrom position last cs generalizing ts with
    | case1 position last =>
        cases h
        exact ⟨[], position, last, .done, rfl⟩
    | case2 _ _ _ _ blank ih =>
        obtain ⟨body, _, _, scans, rfl⟩ := ih h
        exact ⟨body, _, _, .blank blank scans, rfl⟩
    | case3 => cases h
    | case4 => cases h
    | case5 position last c rest noBlank lexeme count scanned width tokens lexed =>
        rename_i ih
        cases h
        obtain ⟨body, _, _, scans, rfl⟩ := ih lexed
        have same : width = Text.size lexeme.source := by
          rw [(scan_sound scanned).2.1, Text.size_cons]
        rw [same] at scans
        exact ⟨⟨lexeme, position⟩ :: body, _, _, .lexeme (by simpa using noBlank) scanned scans, rfl⟩
  · rintro ⟨body, position', last', scans, rfl⟩
    rw [scans.lexFrom_eq, lexFrom_nil]
    rfl

theorem scans_of_lexFrom {body : List Token} {q : Nat}
    (lexed : lexFrom position last cs = .ok (body ++ [⟨.finish, q⟩])) :
    ∃ last', Scans ⟨position, last, cs⟩ body ⟨q, last', []⟩ := by
  obtain ⟨body', q', last', scans, same⟩ := lexFrom_eq_ok_iff.mp lexed
  obtain ⟨rfl, finish⟩ := List.append_inj' same rfl
  cases finish
  exact ⟨last', scans⟩

/-! ### From the text to the tokens and back -/

/-- Tokens write a text from an offset on: each stands at its offset in its
    written form, the end stands where the text ends, and all that is between
    them is blank. -/
inductive Written : Nat → List Token → List Char → Prop
  | finish {p : Nat} : Written p [⟨.finish, p⟩] []
  | blank {p : Nat} {ts : List Token} {c : Char} {cs : List Char} : Text.isBlank c = true →
      Written (p + Text.charSize c) ts cs → Written p ts (c :: cs)
  | token {p : Nat} {lexeme : Lexeme} {ts : List Token} {cs : List Char} : lexeme.WellFormed →
      Written (p + Text.size lexeme.source) ts cs →
      Written p (⟨lexeme, p⟩ :: ts) (lexeme.source ++ cs)

/-- Rows of lexemes in which no negative number directly follows an operand. -/
def Signed (ls : List Lexeme) : Prop :=
  ls.IsChain fun before lexeme => before.endsOperand = true → ¬ lexeme.IsNegative

theorem signed_cons {ls : List Lexeme} :
    Signed (last.toList ++ lexeme :: ls) ↔
      (last.any Lexeme.endsOperand = true → ¬ lexeme.IsNegative) ∧ Signed (lexeme :: ls) := by
  cases last with
  | none => simp
  | some before => exact List.isChain_cons_cons

theorem Lexeme.WellFormed.size_pos (form : lexeme.WellFormed) : 0 < Text.size lexeme.source := by
  obtain ⟨c, cs, same, -⟩ := @scan_source none lexeme form (by simp)
  have := Text.charSize_pos c
  rw [same, Text.size_cons]
  omega

namespace Written

theorem start_le (written : Written position ts cs) : ∀ token ∈ ts, position ≤ token.position := by
  induction written with
  | finish => simp
  | blank _ _ ih =>
      intro token isIn
      exact Nat.le_of_add_right_le (ih token isIn)
  | token _ _ ih =>
      intro token isIn
      rcases List.mem_cons.mp isIn with rfl | isIn
      · exact Nat.le_refl _
      · exact Nat.le_of_add_right_le (ih token isIn)

/-- Every written form takes room. -/
theorem increasing (written : Written position ts cs) :
    ts.Pairwise fun token later => token.position < later.position := by
  induction written with
  | finish => simp
  | blank _ _ ih => exact ih
  | token form behind ih =>
      refine List.pairwise_cons.mpr ⟨fun later isIn => ?_, ih⟩
      exact Nat.lt_of_lt_of_le (Nat.lt_add_of_pos_right form.size_pos) (behind.start_le later isIn)

theorem ends (written : Written position ts cs) :
    ∃ body, ts = body ++ [⟨.finish, position + Text.size cs⟩] ∧
      ∀ token ∈ body, token.lexeme.WellFormed := by
  induction written with
  | finish => exact ⟨[], rfl, by simp⟩
  | blank _ _ ih =>
      obtain ⟨body, same, forms⟩ := ih
      exact ⟨body, by rw [same, Text.size_cons, Nat.add_assoc], forms⟩
  | @token p lexeme _ _ form _ ih =>
      obtain ⟨body, same, forms⟩ := ih
      refine ⟨⟨lexeme, p⟩ :: body, ?_, List.forall_mem_cons.mpr ⟨form, forms⟩⟩
      rw [same, Text.size_append, Nat.add_assoc]
      rfl

end Written

namespace Scans

theorem written (scans : Scans here ts there) (ends : there.text = []) :
    Written here.position (ts ++ [⟨.finish, there.position⟩]) here.text := by
  induction scans with
  | done => rw [ends]; exact .finish
  | blank blank _ ih => exact .blank blank (ih ends)
  | @lexeme _ _ c cs lexeme count _ _ _ scanned _ ih =>
      obtain ⟨form, same, -, -⟩ := scan_sound scanned
      have text : c :: cs = lexeme.source ++ cs.drop count := by
        rw [same, List.cons_append, List.take_append_drop]
      dsimp only
      rw [text]
      exact .token form (ih ends)

theorem signed (scans : Scans here ts there) :
    Signed (here.last.toList ++ ts.map Token.lexeme) := by
  induction scans with
  | @done here => cases here.last <;> simp [Signed]
  | blank _ _ ih => exact ih
  | lexeme _ scanned _ ih =>
      exact signed_cons.mpr ⟨(scan_sound scanned).2.2.2, ih⟩

end Scans

/-- Lexemes in their written forms with a space between each two. -/
def spaced (ls : List Lexeme) : List Char :=
  [' '].intercalate (ls.map Lexeme.source)

/-- Lexemes where `spaced` writes them from an offset on, and the end. -/
def placed (position : Nat) : List Lexeme → List Token
  | [] => [⟨.finish, position⟩]
  | [lexeme] => [⟨lexeme, position⟩, ⟨.finish, position + Text.size lexeme.source⟩]
  | lexeme :: ls => ⟨lexeme, position⟩ :: placed (position + Text.size lexeme.source + 1) ls

theorem scans_source (form : lexeme.WellFormed)
    (sign : last.any Lexeme.endsOperand = true → ¬ lexeme.IsNegative) :
    Scans ⟨position, last, lexeme.source⟩ [⟨lexeme, position⟩]
      ⟨position + Text.size lexeme.source, some lexeme, []⟩ := by
  obtain ⟨c, cs, same, noBlank, scanned⟩ := scan_source form sign
  conv => enter [1, 3]; rw [same]
  refine .lexeme noBlank (scanned position) ?_
  rw [List.drop_length]
  exact .done

theorem lexFrom_spaced {ls : List Lexeme} (forms : ∀ lexeme ∈ ls, lexeme.WellFormed)
    (signed : Signed (last.toList ++ ls)) :
    lexFrom position last (spaced ls) = .ok (placed position ls) := by
  induction ls generalizing position last with
  | nil =>
      rw [spaced, List.map_nil, List.intercalate_nil, lexFrom_nil]
      rfl
  | cons lexeme ls ih =>
      obtain ⟨form, forms⟩ := List.forall_mem_cons.mp forms
      obtain ⟨sign, signed⟩ := signed_cons.mp signed
      have first : Scans ⟨position, last, lexeme.source⟩ _ _ := scans_source form sign
      cases ls with
      | nil =>
          rw [spaced, List.map_singleton, List.intercalate_singleton, first.lexFrom_eq,
            lexFrom_nil]
          rfl
      | cons next ls =>
          have text : spaced (lexeme :: next :: ls) = lexeme.source ++ ' ' :: spaced (next :: ls) := by
            simp [spaced, List.intercalate_cons_cons]
          have behind : Signed ((some lexeme).toList ++ next :: ls) := signed
          rw [text, (first.append rfl (separates_of_isBlank Text.isBlank_space) _).lexFrom_eq,
            lexFrom_blank Text.isBlank_space, ih forms behind]
          rfl

theorem lexemes_placed (position : Nat) (ls : List Lexeme) :
    (placed position ls).map Token.lexeme = ls ++ [.finish] := by
  fun_induction placed position ls with
  | case1 => rfl
  | case2 => rfl
  | case3 _ _ _ _ ih => simp [ih]

/-- The lexer is lossless in both directions.  The tokens of a text stand at
    increasing offsets and write the text again, up to the blanks between them,
    with one end behind well-formed lexemes; and well-formed lexemes in which no
    negative number follows an operand are read back from their written forms
    with a space between each two. -/
theorem tokenize_lossless :
    (∀ s ts, tokenize s = .ok ts →
      Written 0 ts s.toList ∧ (ts.Pairwise fun token later => token.position < later.position) ∧
        ∃ body, ts = body ++ [⟨.finish, Text.size s.toList⟩] ∧
          (∀ token ∈ body, token.lexeme.WellFormed) ∧ Signed (body.map Token.lexeme)) ∧
      ∀ ls : List Lexeme, (∀ lexeme ∈ ls, lexeme.WellFormed) → Signed ls →
        tokenize (String.ofList (spaced ls)) = .ok (placed 0 ls) ∧
          (placed 0 ls).map Token.lexeme = ls ++ [.finish] := by
  refine ⟨fun s ts tokenized => ?_, fun ls forms signed => ⟨?_, lexemes_placed 0 ls⟩⟩
  · obtain ⟨body, position', last', scans, rfl⟩ :=
      lexFrom_eq_ok_iff.mp (tokenize_eq_ok_iff.mp tokenized)
    have written : Written 0 (body ++ [⟨.finish, position'⟩]) s.toList := scans.written rfl
    obtain ⟨body', same, forms⟩ := written.ends
    obtain ⟨rfl, finish⟩ := List.append_inj' same rfl
    rw [Nat.zero_add] at finish
    exact ⟨written, written.increasing, body, by rw [finish], forms, scans.signed⟩
  · rw [tokenize_eq_ok_iff, String.toList_ofList, lex]
    exact lexFrom_spaced forms signed

theorem tokenize_lossless_quoted :
    (tokenize "a<-1 && 'it''s'" = .ok
        [⟨.identifier "a", 0⟩, ⟨.operator .less, 1⟩, ⟨.number "-1", 2⟩, ⟨.operator .and, 5⟩,
          ⟨.string "it's", 8⟩, ⟨.finish, 15⟩] ∧
      Written 0
        [⟨.identifier "a", 0⟩, ⟨.operator .less, 1⟩, ⟨.number "-1", 2⟩, ⟨.operator .and, 5⟩,
          ⟨.string "it's", 8⟩, ⟨.finish, 15⟩] "a<-1 && 'it''s'".toList) ∧
      ((Lexeme.string "it's").WellFormed ∧ Signed [.string "it's", .punctuator .comma] ∧
        tokenize "'it''s' ," = .ok
          [⟨.string "it's", 0⟩, ⟨.punctuator .comma, 8⟩, ⟨.finish, 9⟩]) := by
  have tokenized : tokenize "a<-1 && 'it''s'" = .ok
      [⟨.identifier "a", 0⟩, ⟨.operator .less, 1⟩, ⟨.number "-1", 2⟩, ⟨.operator .and, 5⟩,
        ⟨.string "it's", 8⟩, ⟨.finish, 15⟩] := by cbv
  have forms : ∀ lexeme ∈ [Lexeme.string "it's", .punctuator .comma], lexeme.WellFormed := by
    simp [Lexeme.WellFormed.string, Lexeme.WellFormed.punctuator]
  have signed : Signed [.string "it's", .punctuator .comma] := by
    simp [Signed, Lexeme.IsNegative]
  exact ⟨⟨tokenized, (tokenize_lossless.1 _ _ tokenized).1⟩, .string, signed,
    (tokenize_lossless.2 _ forms signed).1⟩

end JobMatrix.Expr
