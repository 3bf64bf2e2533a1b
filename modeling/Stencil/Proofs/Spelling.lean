import Stencil.Proofs.Reading

/-! What the parser makes of a text.

Whole expressions stand in each other no deeper than there are lexemes, so the parser always comes to an
end (`Expr.Parser.nested_eq`); each part of it that succeeds takes lexemes off the front of those that it
is given (`Expr.Parser.Part.takes_of_leaves`); and a text is read as an expression just if all of its
lexemes together spell that expression (`Lambda.parse_iff_spelled`). -/
namespace Stencil

namespace Expr.Parser

/-! ### How deep expressions stand in each other -/

/-- All the lexemes that a reader is given are within its bound. -/
theorem within (lexemes : List Lexeme) : lexemes.length ≤ lexemes.length :=
  Nat.le_refl _

theorem within_succ (lexemes : List Lexeme) : lexemes.length < lexemes.length + 1 :=
  Nat.lt_succ_self _

/-- The reader of whole expressions that stand at most `depth` deep in each other. Those that stand
deeper are left to `beyond`. -/
def nested (last : Span) (beyond : (lexemes : List Lexeme) → Result Expr lexemes) :
    (depth : Nat) → (lexemes : List Lexeme) → Result Expr lexemes
  | 0, lexemes => beyond lexemes
  | depth + 1, lexemes =>
    choice last (fun lexemes' _ => nested last beyond depth lexemes') lexemes (within lexemes)

/-- Nothing is ever left to `beyond` if whole expressions may stand as deep in each other as there are
lexemes. -/
theorem nested_eq (last : Span) (beyond : (lexemes : List Lexeme) → Result Expr lexemes)
    {depth : Nat} {lexemes : List Lexeme} (h : lexemes.length < depth) :
    nested last beyond depth lexemes = expression last lexemes := by
  induction depth generalizing lexemes with
  | zero => exact absurd h (Nat.not_lt_zero _)
  | succ depth ih =>
    have hinner : (fun lexemes' (_ : lexemes'.length < lexemes.length) =>
        nested last beyond depth lexemes') = fun lexemes' _ => expression last lexemes' := by
      funext lexemes' hl
      exact ih (Nat.lt_of_lt_of_le hl (Nat.le_of_lt_succ h))
    rw [nested, expression, hinner]

/-! ### What each part takes -/

inductive Part where
  | parameter
  | expression
  /-- Alternatives for a missing value. -/
  | coalesced
  /-- Operands joined at these levels. -/
  | joined (levels : List (Symbol → Option BinaryOp))
  | prefixed
  /-- An operand with what follows it. -/
  | postfixed
  | primary
  | arguments

/-- The lexemes that a part leaves over. -/
def Part.leaves (last : Span) (lexemes : List Lexeme) : Part → Eval (List Lexeme)
  | parameter => (Parser.parameter last lexemes).map (·.2)
  | expression => (Parser.expression last lexemes).map (·.1.2)
  | coalesced => (Parser.coalesced last (whole last _) lexemes (within lexemes)).map (·.1.2)
  | joined levels => (Parser.joined last (whole last _) levels lexemes (within lexemes)).map (·.1.2)
  | prefixed => (Parser.prefixed last (whole last _) lexemes (within lexemes)).map (·.1.2)
  | postfixed => (Parser.postfixed last (whole last _) lexemes (within lexemes)).map (·.1.2)
  | primary => (Parser.primary last (whole last _) lexemes (within lexemes)).map (·.1.2)
  | arguments => (Parser.arguments last (whole last _) lexemes (within_succ lexemes)).map (·.1.2)

theorem sound_whole (last : Span) (bound : Nat) : Sound (whole last bound) :=
  fun _ _ _ _ _ he => reads_expression he

/-- Something was taken off the front of the lexemes. -/
def Takes (lexemes rest : List Lexeme) : Prop :=
  ∃ own, own ≠ [] ∧ lexemes = own ++ rest

theorem Reads.takes {stratum : Stratum} {lexemes rest : List Lexeme} {es : List Expr}
    (h : Reads stratum lexemes es rest) : Takes lexemes rest := by
  obtain ⟨own, hl, hown⟩ := h
  exact ⟨own, hown.ne_nil, hl⟩

theorem Takes.trans_cons {lexemes rest : List Lexeme} {next : Lexeme}
    (h : Takes lexemes (next :: rest)) : Takes lexemes rest := by
  obtain ⟨own, hne, rfl⟩ := h
  exact ⟨own ++ [next], List.append_ne_nil_of_left_ne_nil hne _, (List.append_cons ..)⟩

/-- Each part that succeeds has taken a lexeme, and no more than there are. -/
theorem Part.takes_of_leaves {last : Span} {lexemes rest : List Lexeme} {part : Part}
    (h : part.leaves last lexemes = .ok rest) : Takes lexemes rest := by
  -- A part that is a reader takes what it reads.
  have hreader : ∀ {α : Type} {reading : Result α lexemes},
      reading.map (·.1.2) = .ok rest →
      (∀ a rest' hr, reading = .ok ⟨(a, rest'), hr⟩ → Takes lexemes rest') → Takes lexemes rest := by
    intro α reading hm ht
    obtain ⟨⟨⟨a, rest'⟩, hlt⟩, hr, rfl⟩ := exists_of_map_eq_ok hm
    exact ht a _ hlt hr
  have hsound := sound_whole last
  cases part with
  | parameter =>
    obtain ⟨⟨param, rest'⟩, hp, rfl⟩ := exists_of_map_eq_ok h
    obtain ⟨name, arrow, rfl | ⟨before, behind, rfl⟩⟩ := of_parameter hp
    · exact ⟨[_, _], List.cons_ne_nil _ _, rfl⟩
    · exact ⟨[_, _, _, _], List.cons_ne_nil _ _, rfl⟩
  | expression => exact hreader h fun _ _ _ hr => (reads_expression hr).takes
  | coalesced => exact hreader h fun _ _ _ hr => (reads_coalesced (hsound _) hr).takes
  | joined levels => exact hreader h fun _ _ _ hr => (soundAt_joined (hsound _) levels _ _ _ _ _ hr).takes
  | prefixed => exact hreader h fun _ _ _ hr => (reads_prefixed (hsound _) hr).takes
  | postfixed => exact hreader h fun _ _ _ hr => (reads_postfixed (hsound _) hr).takes
  | primary => exact hreader h fun _ _ _ hr => (reads_primary (hsound _) hr).takes
  | arguments =>
    refine hreader h fun _ _ _ hr => ?_
    obtain ⟨close, hreads⟩ := reads_arguments (hsound _) hr
    exact hreads.takes.trans_cons

end Expr.Parser

/-! ### Texts -/

/-- A text is read as an expression just if its lexemes spell that. -/
theorem Lambda.parse_eq_ok_iff {text : String} {lambda : Lambda} :
    Lambda.parse text = .ok lambda ↔
      ∃ lexemes, Lexeme.ofText text = .ok lexemes ∧ lambda.Spelled lexemes := by
  constructor
  · intro h
    obtain ⟨lexemes, hlexemes, h⟩ := Eval.exists_of_bind h
    exact ⟨lexemes, hlexemes, ofLexemes_iff.1 h⟩
  · rintro ⟨lexemes, hlexemes, h⟩
    unfold Lambda.parse
    rw [hlexemes]
    exact ofLexemes_iff.2 h

/-- **The parser comes to an end, each of its parts takes lexemes, and it reads what is spelled.** No
deeper than there are lexemes do whole expressions stand in each other, whatever would be made of those
that do; and no lexeme of the text is passed over, nor any made up. -/
theorem Lambda.parse_iff_spelled (text : String) :
    (∀ last lexemes beyond,
      Expr.Parser.nested last beyond (lexemes.length + 1) lexemes =
        Expr.Parser.expression last lexemes) ∧
    (∀ (part : Expr.Parser.Part) last lexemes rest, part.leaves last lexemes = .ok rest →
      Expr.Parser.Takes lexemes rest) ∧
    ∀ lambda, Lambda.parse text = .ok lambda ↔
      ∃ lexemes, Lexeme.ofText text = .ok lexemes ∧ Lexeme.Spells 0 text.toList lexemes ∧
        lambda.Spelled lexemes := by
  refine ⟨fun last lexemes beyond => Expr.Parser.nested_eq last beyond (Nat.lt_succ_self _),
    fun part last lexemes rest => Expr.Parser.Part.takes_of_leaves, fun lambda => ?_⟩
  rw [parse_eq_ok_iff]
  constructor
  · rintro ⟨lexemes, hlexemes, h⟩
    exact ⟨lexemes, hlexemes, Lexeme.spells_of_ofChars hlexemes, h⟩
  · rintro ⟨lexemes, hlexemes, -, h⟩
    exact ⟨lexemes, hlexemes, h⟩

end Stencil
