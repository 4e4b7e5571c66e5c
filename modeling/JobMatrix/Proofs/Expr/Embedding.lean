import JobMatrix.Proofs.Expr.Lexing
import JobMatrix.Proofs.Expr.Respelling

/-! # Expressions inside other texts

A text that spells a tree goes on to spell it with other blanks around it, and
in parentheses it spells an operand wherever it stands.
-/

namespace JobMatrix.Expr

/-! ### Where tokens stand does not matter to the grammar -/

def SameLexemes (ts' ts : List Token) : Prop :=
  ts'.map Token.lexeme = ts.map Token.lexeme

theorem alike_exact_iff {ts ts' : List Token} : Alike .exact ts' ts ↔ SameLexemes ts' ts := by
  have like : ∀ {lexeme lexeme' : Lexeme}, lexeme.Like .exact lexeme' ↔ lexeme = lexeme' := by
    intro lexeme lexeme'
    cases lexeme <;> cases lexeme' <;> simp [Lexeme.Like, Spelling.exact]
  simp only [Alike, SameLexemes, like, ← List.forall₂_eq_eq_eq, List.forall₂_map_left_iff,
    List.forall₂_map_right_iff]

theorem Joined.congr {level ts ts' t} (joined : Joined level ts t) (same : SameLexemes ts' ts) :
    Joined level ts' t := by
  obtain ⟨t', joined', like⟩ := joined.respell (alike_exact_iff.mpr same)
  rw [like.eq_of_exact] at joined'
  exact joined'

theorem Primary.operand {ts t} (primary : Primary ts t) (level : Level) : Operand level ts t := by
  have order : Operand .order ts t := .order (.access (.primary primary))
  have equality : Operand .equality ts t := .equality (.operand order)
  have and : Operand .and ts t := .and (.operand equality)
  cases level with
  | order => exact order
  | equality => exact equality
  | and => exact and
  | or => exact .or (.operand and)

/-! ### From a text to a tree -/

variable {position position' count : Nat} {last last' : Option Lexeme} {b c : Char}
  {cs xs ys : List Char} {ts : List Token} {lexeme : Lexeme} {cause : Cause} {here there : Place}
  {s : String} {t : Expr}

theorem lexFrom_of_parse (parsed : parse (String.ofList cs) = .ok t) :
    ∃ body q, lexFrom 0 none cs = .ok (body ++ [⟨.finish, q⟩]) ∧ Joined .or body t := by
  obtain ⟨body, q, tokenized, derived⟩ := parse_eq_ok_iff_spells.mp parsed
  rw [tokenize_eq_ok_iff, String.toList_ofList] at tokenized
  exact ⟨body, q, tokenized, derived⟩

theorem parse_of_scans (scans : Scans ⟨position, none, cs⟩ ts ⟨position', last', []⟩)
    (derived : Joined .or ts t) : parse (String.ofList cs) = .ok t := by
  obtain ⟨body, p, _, moved, same⟩ := scans.congr rfl 0
  refine parse_eq_ok_iff_spells.mpr ⟨body, p, ?_, derived.congr same⟩
  rw [tokenize_eq_ok_iff, String.toList_ofList]
  exact lexFrom_eq_ok_iff.mpr ⟨body, p, _, moved, rfl⟩

/-- An expression in parentheses is an operand wherever it stands. -/
theorem scans_paren (parsed : parse (String.ofList cs) = .ok t) (position : Nat)
    (last : Option Lexeme) :
    ∃ ts position' last', Scans ⟨position, last, '(' :: (cs ++ [')'])⟩ ts ⟨position', last', []⟩ ∧
      Primary ts t := by
  obtain ⟨body, q, lexed, derived⟩ := lexFrom_of_parse parsed
  obtain ⟨_, scans⟩ := scans_of_lexFrom lexed
  obtain ⟨inner, p, last', moved, same⟩ :=
    @Scans.congr (some (.punctuator .openParen)) _ _ _ scans rfl (position + 1)
  have close : Separates ')' := ⟨rfl, by decide⟩
  have inside := moved.append rfl close []
  have behind : Scans ⟨p, last', [')']⟩ [⟨.punctuator .closeParen, p⟩] ⟨p + 1, _, []⟩ :=
    .lexeme rfl rfl .done
  exact ⟨_, _, _, .lexeme rfl rfl (inside.trans behind), .paren (derived.congr same)⟩

/-! ### Blanks around a text -/

theorem lexFrom_lead {lead : List Char} (blank : ∀ c ∈ lead, Text.isBlank c = true) :
    lexFrom position last (lead ++ cs) = lexFrom (position + Text.size lead) last cs := by
  induction lead generalizing position with
  | nil => rfl
  | cons c lead ih =>
      obtain ⟨isBlank, blank⟩ := List.forall_mem_cons.mp blank
      rw [List.cons_append, lexFrom_blank isBlank, ih blank, Text.size_cons, Nat.add_assoc]

/-- A lexer that fails goes on to fail, unless it is in a quoted text that is
    closed later. -/
theorem lexFrom_append_error (failed : lexFrom position last xs = .error cause)
    (stop : Separates b) (unclosed : (∃ p, cause = .unterminatedString p) → '\'' ∉ b :: ys) :
    lexFrom position last (xs ++ b :: ys) = .error cause := by
  fun_induction lexFrom position last xs with
  | case1 => cases failed
  | case2 _ _ _ _ blank ih => rw [List.cons_append, lexFrom_blank blank, ih failed]
  | case3 position last c rest noBlank cause' scanned =>
      cases failed
      have noQuote : c = '\'' → '\'' ∉ b :: ys := by
        rcases scan_error scanned with ⟨-, same⟩ | ⟨other, -⟩
        · exact fun _ => unclosed ⟨_, same⟩
        · exact fun quote => absurd quote other
      exact lexFrom_error (by simpa using noBlank) (scan_append_error stop scanned noQuote)
  | case4 position last c rest noBlank lexeme count scanned width cause' lexed =>
      rename_i ih
      cases failed
      have same : width = Text.size lexeme.source := by
        rw [(scan_sound scanned).2.1, Text.size_cons]
      rw [List.cons_append, lexFrom_lexeme (by simpa using noBlank) (scan_append stop scanned),
        List.drop_append_of_le_length (scan_sound scanned).2.2.1, ← same, ih lexed]
      rfl
  | case5 => cases failed

theorem lexFrom_trail {trail : List Char} {q : Nat} (blank : ∀ c ∈ trail, Text.isBlank c = true)
    (lexed : lexFrom position last (cs ++ trail) = .ok (ts ++ [⟨.finish, q⟩])) :
    ∃ q', lexFrom position last cs = .ok (ts ++ [⟨.finish, q'⟩]) := by
  cases trail with
  | nil => exact ⟨q, by simpa using lexed⟩
  | cons b ys =>
      have stop := separates_of_isBlank (blank b (by simp))
      cases alone : lexFrom position last cs with
      | error cause =>
          have noQuote : '\'' ∉ b :: ys := fun isIn => absurd (blank _ isIn) (by decide)
          rw [lexFrom_append_error alone stop (fun _ => noQuote)] at lexed
          cases lexed
      | ok ts' =>
          obtain ⟨body, p, last', scans, rfl⟩ := lexFrom_eq_ok_iff.mp alone
          have behind : lexFrom p last' (b :: ys) = .ok [⟨.finish, p + Text.size (b :: ys)⟩] := by
            rw [← (b :: ys).append_nil, lexFrom_lead blank, lexFrom_nil, List.append_nil]
          have whole := (scans.append rfl stop ys).lexFrom_eq
          dsimp only at whole
          rw [behind, lexed] at whole
          obtain ⟨rfl, -⟩ := List.append_inj' (Except.ok.inj whole) rfl
          exact ⟨p, rfl⟩

theorem parse_lead {lead : List Char} (blank : ∀ c ∈ lead, Text.isBlank c = true)
    (parsed : parse (String.ofList (lead ++ cs)) = .ok t) : parse (String.ofList cs) = .ok t := by
  obtain ⟨body, q, lexed, derived⟩ := lexFrom_of_parse parsed
  rw [lexFrom_lead blank] at lexed
  obtain ⟨_, scans⟩ := scans_of_lexFrom lexed
  exact parse_of_scans scans derived

theorem parse_trail {trail : List Char} (blank : ∀ c ∈ trail, Text.isBlank c = true)
    (parsed : parse (String.ofList (cs ++ trail)) = .ok t) : parse (String.ofList cs) = .ok t := by
  obtain ⟨body, q, lexed, derived⟩ := lexFrom_of_parse parsed
  obtain ⟨q', alone⟩ := lexFrom_trail blank lexed
  obtain ⟨_, scans⟩ := scans_of_lexFrom alone
  exact parse_of_scans scans derived

/-- Blanks around an expression are not part of it. -/
theorem parse_trim (parsed : parse s = .ok t) : parse (Text.trim s) = .ok t := by
  obtain ⟨lead, trail, blankLead, blankTrail, same⟩ := Text.exists_trimChars s.toList
  rw [← String.ofList_toList (s := s), same] at parsed
  exact parse_trail blankTrail (parse_lead blankLead parsed)

end JobMatrix.Expr
