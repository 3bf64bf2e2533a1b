import Stencil.Expr.Parser

/-! The grammar of expressions.

`Expr.Derives` says which expression a list of lexemes spells, from the loosest level to the tightest,
and nothing of how it is read. Each part of the parser takes a derivation of its level off the front of
the lexemes and leaves over the rest (`Reads`); so an expression that is read is one that is spelled,
by all lexemes there are (`Lambda.spells_of_ofLexemes`). -/
namespace Stencil

namespace Expr

/-- The levels of the grammar, loosest first. -/
inductive Stratum where
  | arguments
  | choice
  /-- Alternatives for a missing value. -/
  | coalesced
  /-- Operands joined by binary operators of these levels, loosest first. -/
  | joined (levels : List (Symbol → Option BinaryOp))
  /-- An operand behind prefix operators. -/
  | prefixed
  /-- An operand with members, calls and indexes behind it. -/
  | postfixed
  | primary

/-- What lexemes spell at a level of the grammar: an expression, or several that are the arguments of
a call. -/
inductive Derives : Stratum → List Lexeme → List Expr → Prop
  | int (i : Int64) (span : Span) : Derives .primary [⟨.int i, span⟩] [.literal (.int i)]
  | float (x : Float) (span : Span) : Derives .primary [⟨.float x, span⟩] [.literal (.float x)]
  | str (s : String) (span : Span) : Derives .primary [⟨.str s, span⟩] [.literal (.str s)]
  | named (name : String) (span : Span) :
      Derives .primary [⟨.ident name, span⟩] [Parser.named name span]
  | group {lexemes : List Lexeme} {e : Expr} {before behind : Span}
      (h : Derives .choice lexemes [e]) :
      Derives .primary
        (⟨.symbol .openParen, before⟩ :: (lexemes ++ [⟨.symbol .closeParen, behind⟩])) [e]
  | ofPrimary {lexemes : List Lexeme} {e : Expr} (h : Derives .primary lexemes [e]) :
      Derives .postfixed lexemes [e]
  | member {lexemes : List Lexeme} {e : Expr} {dot span : Span} (name : String)
      (h : Derives .postfixed lexemes [e]) :
      Derives .postfixed (lexemes ++ [⟨.symbol .dot, dot⟩, ⟨.ident name, span⟩])
        [.member e name span]
  | invoke {lexemes : List Lexeme} {e : Expr} {dot span before behind : Span} (name : String)
      (h : Derives .postfixed lexemes [e]) :
      Derives .postfixed
        (lexemes ++ [⟨.symbol .dot, dot⟩, ⟨.ident name, span⟩, ⟨.symbol .openParen, before⟩,
          ⟨.symbol .closeParen, behind⟩])
        [.call e name [] span]
  | call {lexemes more : List Lexeme} {e : Expr} {args : List Expr} {dot span before behind : Span}
      (name : String) (h : Derives .postfixed lexemes [e]) (hargs : Derives .arguments more args) :
      Derives .postfixed
        (lexemes ++ ⟨.symbol .dot, dot⟩ :: ⟨.ident name, span⟩ :: ⟨.symbol .openParen, before⟩ ::
          (more ++ [⟨.symbol .closeParen, behind⟩]))
        [.call e name args span]
  | index {lexemes more : List Lexeme} {first : Lexeme} {e i : Expr} {before behind : Span}
      (h : Derives .postfixed lexemes [e]) (hi : Derives .choice (first :: more) [i]) :
      Derives .postfixed
        (lexemes ++ ⟨.symbol .openBracket, before⟩ ::
          (first :: more ++ [⟨.symbol .closeBracket, behind⟩]))
        [.index e i first.span]
  | ofPostfixed {lexemes : List Lexeme} {e : Expr} (h : Derives .postfixed lexemes [e]) :
      Derives .prefixed lexemes [e]
  | unary {lexemes : List Lexeme} {e : Expr} {symbol : Symbol} {op : UnaryOp} {span : Span}
      (hop : Parser.prefixOp? symbol = some op) (h : Derives .prefixed lexemes [e]) :
      Derives .prefixed (⟨.symbol symbol, span⟩ :: lexemes) [.unary op e]
  | ofPrefixed {lexemes : List Lexeme} {e : Expr} (h : Derives .prefixed lexemes [e]) :
      Derives (.joined []) lexemes [e]
  | ofTighter {op? : Symbol → Option BinaryOp} {tighter : List (Symbol → Option BinaryOp)}
      {lexemes : List Lexeme} {e : Expr} (h : Derives (.joined tighter) lexemes [e]) :
      Derives (.joined (op? :: tighter)) lexemes [e]
  | binary {op? : Symbol → Option BinaryOp} {tighter : List (Symbol → Option BinaryOp)}
      {lexemes more : List Lexeme} {left right : Expr} {symbol : Symbol} {op : BinaryOp} {span : Span}
      (hl : Derives (.joined (op? :: tighter)) lexemes [left]) (hop : op? symbol = some op)
      (hr : Derives (.joined tighter) more [right]) :
      Derives (.joined (op? :: tighter)) (lexemes ++ ⟨.symbol symbol, span⟩ :: more)
        [.binary op left right]
  | ofJoined {lexemes : List Lexeme} {e : Expr} (h : Derives (.joined Parser.levels) lexemes [e]) :
      Derives .coalesced lexemes [e]
  | coalesce {lexemes more : List Lexeme} {left right : Expr} {span : Span}
      (hl : Derives (.joined Parser.levels) lexemes [left]) (hr : Derives .coalesced more [right]) :
      Derives .coalesced (lexemes ++ ⟨.symbol .coalesce, span⟩ :: more)
        [.binary .coalesce left right]
  | ofCoalesced {lexemes : List Lexeme} {e : Expr} (h : Derives .coalesced lexemes [e]) :
      Derives .choice lexemes [e]
  | conditional {lexemes more others : List Lexeme} {condition yes no : Expr} {question colon : Span}
      (hc : Derives .coalesced lexemes [condition]) (hy : Derives .choice more [yes])
      (hn : Derives .choice others [no]) :
      Derives .choice
        (lexemes ++ ⟨.symbol .question, question⟩ :: (more ++ ⟨.symbol .colon, colon⟩ :: others))
        [.conditional condition yes no]
  | lastArgument {lexemes : List Lexeme} {e : Expr} (h : Derives .choice lexemes [e]) :
      Derives .arguments lexemes [e]
  | argument {lexemes more : List Lexeme} {e : Expr} {es : List Expr} {comma : Span}
      (h : Derives .choice lexemes [e]) (hs : Derives .arguments more es) :
      Derives .arguments (lexemes ++ ⟨.symbol .comma, comma⟩ :: more) (e :: es)

/-- Nothing is spelled by no lexemes. -/
theorem Derives.ne_nil {stratum : Stratum} {lexemes : List Lexeme} {es : List Expr}
    (h : Derives stratum lexemes es) : lexemes ≠ [] := by
  induction h with
  | int | float | str | named | group | unary => exact List.cons_ne_nil _ _
  | ofPrimary _ ih | ofPostfixed _ ih | ofPrefixed _ ih | ofTighter _ ih | ofJoined _ ih
  | ofCoalesced _ ih | lastArgument _ ih => exact ih
  | _ => simp

/-! ### What the parser reads -/

namespace Parser

/-- A derivation is taken off the front of some lexemes, which leaves over the rest. -/
def Reads (stratum : Stratum) (lexemes : List Lexeme) (es : List Expr) (rest : List Lexeme) : Prop :=
  ∃ own, lexemes = own ++ rest ∧ Derives stratum own es

theorem Reads.imp {stratum stratum' : Stratum} {lexemes rest : List Lexeme} {es es' : List Expr}
    (h : Reads stratum lexemes es rest)
    (hd : ∀ own, Derives stratum own es → Derives stratum' own es') :
    Reads stratum' lexemes es' rest := by
  obtain ⟨own, rfl, h⟩ := h
  exact ⟨own, rfl, hd own h⟩

/-- A derivation goes on with more of the lexemes. -/
theorem Reads.extend {stratum stratum' : Stratum} {lexemes rest : List Lexeme} {es es' : List Expr}
    (more : List Lexeme) (h : Reads stratum lexemes es (more ++ rest))
    (hd : ∀ own, Derives stratum own es → Derives stratum' (own ++ more) es') :
    Reads stratum' lexemes es' rest := by
  obtain ⟨own, rfl, h⟩ := h
  exact ⟨own ++ more, (List.append_assoc ..).symm, hd own h⟩

theorem of_expect {last : Span} {symbol : Symbol} {wanted : EvalError.Wanted}
    {lexemes rest : List Lexeme} {hr : rest.length < lexemes.length}
    (h : expect last symbol wanted lexemes = .ok ⟨((), rest), hr⟩) :
    ∃ span, lexemes = ⟨.symbol symbol, span⟩ :: rest := by
  unfold expect at h
  split at h
  · next s span more =>
    split at h
    · next hs =>
      cases h
      exact ⟨span, by rw [hs]⟩
    · cases h
  · cases h

/-- A reader of whole expressions that reads what is spelled. -/
def Sound {bound : Nat} (inner : Inner bound) : Prop :=
  ∀ lexemes h e rest hr, inner lexemes h = .ok ⟨(e, rest), hr⟩ → Reads .choice lexemes [e] rest

variable {last : Span} {bound : Nat} {inner : Inner bound}

theorem reads_primary (hi : Sound inner) {lexemes rest : List Lexeme} {e : Expr}
    {h : lexemes.length ≤ bound}
    {hr : rest.length < lexemes.length}
    (hp : primary last inner lexemes h = .ok ⟨(e, rest), hr⟩) : Reads .primary lexemes [e] rest := by
  unfold primary at hp
  split at hp
  · cases hp
  · cases hp
    exact ⟨[_], rfl, .int ..⟩
  · cases hp
    exact ⟨[_], rfl, .float ..⟩
  · cases hp
    exact ⟨[_], rfl, .str ..⟩
  · cases hp
    exact ⟨[_], rfl, .named ..⟩
  · next symbol span more _ =>
    split at hp
    · next hs =>
      obtain ⟨⟨⟨e', rest'⟩, h'⟩, hinner, hp⟩ := Eval.exists_of_bind hp
      obtain ⟨⟨⟨_, rest''⟩, h''⟩, hclose, hp⟩ := Eval.exists_of_bind hp
      cases hp
      obtain ⟨own, rfl, hown⟩ := hi _ _ _ _ _ hinner
      obtain ⟨behind, rfl⟩ := of_expect hclose
      subst hs
      refine ⟨⟨.symbol .openParen, span⟩ :: (own ++ [⟨.symbol .closeParen, behind⟩]), ?_, .group hown⟩
      rw [List.cons_append, List.append_assoc]
      rfl
    · cases hp

/-- Arguments are read together with the parenthesis behind them. -/
theorem reads_arguments (hi : Sound inner) {lexemes rest : List Lexeme} {es : List Expr}
    {h : lexemes.length < bound} {hr : rest.length < lexemes.length}
    (ha : arguments last inner lexemes h = .ok ⟨(es, rest), hr⟩) :
    ∃ span, Reads .arguments lexemes es (⟨.symbol .closeParen, span⟩ :: rest) := by
  rw [arguments] at ha
  obtain ⟨⟨⟨e, more⟩, h'⟩, hinner, ha⟩ := Eval.exists_of_bind ha
  have hfirst := hi _ _ _ _ _ hinner
  dsimp only at ha
  split at ha
  · next comma more h' =>
    obtain ⟨⟨⟨es', rest'⟩, h''⟩, hmore, ha⟩ := Eval.exists_of_bind ha
    cases ha
    obtain ⟨span, own', rfl, hown'⟩ := reads_arguments hi hmore
    exact ⟨span, hfirst.extend (_ :: own') fun _ hown => .argument hown hown'⟩
  · obtain ⟨⟨⟨_, rest'⟩, h''⟩, hclose, ha⟩ := Eval.exists_of_bind ha
    cases ha
    obtain ⟨span, rfl⟩ := of_expect hclose
    exact ⟨span, hfirst.imp fun _ => .lastArgument⟩
termination_by lexemes.length
decreasing_by exact Nat.lt_of_succ_lt ‹_›

/-- What follows an operand belongs to it. -/
theorem reads_suffixes (hi : Sound inner) {start lexemes rest : List Lexeme} {e e' : Expr}
    {h : lexemes.length ≤ bound} {hr : rest.length ≤ lexemes.length}
    (hs : suffixes last inner e lexemes h = .ok ⟨(e', rest), hr⟩)
    (he : Reads .postfixed start [e] lexemes) : Reads .postfixed start [e'] rest := by
  induction hn : lexemes.length using Nat.strongRecOn generalizing lexemes e with
  | ind n ih =>
    rw [suffixes.eq_def] at hs
    split at hs
    · next name span _ _ more h =>
      obtain ⟨⟨r, h'⟩, hmore, hs⟩ := Eval.exists_of_bind hs
      cases hs
      refine ih more.length ?_ hmore (he.extend [_, _, _, _] fun _ => .invoke name) rfl
      simp only [List.length_cons] at hn
      omega
    · next name span _ more _ h =>
      obtain ⟨⟨⟨args, rest'⟩, h'⟩, hargs, hs⟩ := Eval.exists_of_bind hs
      obtain ⟨⟨r, h''⟩, hmore, hs⟩ := Eval.exists_of_bind hs
      cases hs
      obtain ⟨close, own, rfl, hown⟩ := reads_arguments hi hargs
      rw [List.append_cons] at he
      refine ih rest'.length ?_ hmore
        (he.extend (_ :: _ :: _ :: (own ++ [_])) fun _ h => .call name h hown) rfl
      simp only [List.length_cons, List.length_append] at hn
      omega
    · next name span more _ _ h =>
      obtain ⟨⟨r, h'⟩, hmore, hs⟩ := Eval.exists_of_bind hs
      cases hs
      refine ih more.length ?_ hmore (he.extend [_, _] fun _ => .member name) rfl
      simp only [List.length_cons] at hn
      omega
    · cases hs
    · next before more h =>
      obtain ⟨⟨⟨i, rest'⟩, h₁⟩, hindex, hs⟩ := Eval.exists_of_bind hs
      obtain ⟨⟨⟨_, rest''⟩, h₂⟩, hclose, hs⟩ := Eval.exists_of_bind hs
      obtain ⟨⟨r, h₃⟩, hmore, hs⟩ := Eval.exists_of_bind hs
      cases hs
      obtain ⟨behind, rfl⟩ := of_expect hclose
      obtain ⟨own, rfl, hown⟩ := hi _ _ _ _ _ hindex
      cases own with
      | nil => exact absurd rfl hown.ne_nil
      | cons first own =>
        rw [List.append_cons] at he
        refine ih rest''.length ?_ hmore
          (he.extend (_ :: (first :: own ++ [_])) fun _ h => .index h hown) rfl
        simp only [List.length_cons, List.length_append] at hn
        omega
    · cases hs
      exact he

theorem reads_postfixed (hi : Sound inner) {lexemes rest : List Lexeme} {e : Expr}
    {h : lexemes.length ≤ bound} {hr : rest.length < lexemes.length}
    (hp : postfixed last inner lexemes h = .ok ⟨(e, rest), hr⟩) :
    Reads .postfixed lexemes [e] rest := by
  unfold postfixed at hp
  obtain ⟨⟨⟨e', rest'⟩, h'⟩, hprimary, hp⟩ := Eval.exists_of_bind hp
  obtain ⟨⟨r, h''⟩, hsuffixes, hp⟩ := Eval.exists_of_bind hp
  cases hp
  exact reads_suffixes hi hsuffixes ((reads_primary hi hprimary).imp fun _ => .ofPrimary)

theorem reads_prefixed (hi : Sound inner) {lexemes rest : List Lexeme} {e : Expr}
    {h : lexemes.length ≤ bound} {hr : rest.length < lexemes.length}
    (hp : prefixed last inner lexemes h = .ok ⟨(e, rest), hr⟩) :
    Reads .prefixed lexemes [e] rest := by
  rw [prefixed.eq_def] at hp
  split at hp
  · next symbol span more h =>
    split at hp
    · next op hop =>
      obtain ⟨⟨⟨e', rest'⟩, h'⟩, hmore, hp⟩ := Eval.exists_of_bind hp
      cases hp
      obtain ⟨own, rfl, hown⟩ := reads_prefixed hi hmore
      exact ⟨_ :: own, rfl, .unary hop hown⟩
    · exact (reads_postfixed hi hp).imp fun _ => .ofPostfixed
  · exact (reads_postfixed hi hp).imp fun _ => .ofPostfixed

/-- A reader of operands that reads what is spelled at a level. -/
def SoundAt (stratum : Stratum) (operand : Operand bound) : Prop :=
  ∀ lexemes h e rest hr, operand lexemes h = .ok ⟨(e, rest), hr⟩ → Reads stratum lexemes [e] rest

theorem reads_chain {op? : Symbol → Option BinaryOp} {tighter : List (Symbol → Option BinaryOp)}
    {operand : Operand bound} (ho : SoundAt (.joined tighter) operand)
    {start lexemes rest : List Lexeme} {left e : Expr} {h : lexemes.length ≤ bound}
    {hr : rest.length ≤ lexemes.length}
    (hc : chain op? operand left lexemes h = .ok ⟨(e, rest), hr⟩)
    (hl : Reads (.joined (op? :: tighter)) start [left] lexemes) :
    Reads (.joined (op? :: tighter)) start [e] rest := by
  induction hn : lexemes.length using Nat.strongRecOn generalizing lexemes left with
  | ind n ih =>
    rw [chain.eq_def] at hc
    split at hc
    · next symbol span more h =>
      split at hc
      · next op hop =>
        obtain ⟨⟨⟨right, rest'⟩, h'⟩, hright, hc⟩ := Eval.exists_of_bind hc
        obtain ⟨⟨r, h''⟩, hmore, hc⟩ := Eval.exists_of_bind hc
        cases hc
        obtain ⟨own, rfl, hown⟩ := ho _ _ _ _ _ hright
        refine ih rest'.length ?_ hmore
          (hl.extend (_ :: own) fun _ h => .binary h hop hown) rfl
        simp only [List.length_cons, List.length_append] at hn
        omega
      · cases hc
        exact hl
    · cases hc
      exact hl

theorem soundAt_joined (hi : Sound inner) (levels : List (Symbol → Option BinaryOp)) :
    SoundAt (.joined levels) (joined last inner levels) := by
  induction levels with
  | nil =>
    intro lexemes h e rest hr hj
    exact (reads_prefixed hi hj).imp fun _ => .ofPrefixed
  | cons op? tighter ih =>
    intro lexemes h e rest hr hj
    obtain ⟨⟨⟨left, rest'⟩, h'⟩, hleft, hj⟩ := Eval.exists_of_bind hj
    obtain ⟨⟨r, h''⟩, hchain, hj⟩ := Eval.exists_of_bind hj
    cases hj
    exact reads_chain ih hchain ((ih _ _ _ _ _ hleft).imp fun _ => .ofTighter)

theorem reads_coalesced (hi : Sound inner) {lexemes rest : List Lexeme} {e : Expr}
    {h : lexemes.length ≤ bound} {hr : rest.length < lexemes.length}
    (hc : coalesced last inner lexemes h = .ok ⟨(e, rest), hr⟩) :
    Reads .coalesced lexemes [e] rest := by
  rw [coalesced] at hc
  obtain ⟨⟨⟨left, more⟩, h'⟩, hleft, hc⟩ := Eval.exists_of_bind hc
  have hreads := soundAt_joined hi levels _ _ _ _ _ hleft
  dsimp only at hc
  split at hc
  · next span more h' =>
    obtain ⟨⟨⟨right, rest'⟩, h''⟩, hright, hc⟩ := Eval.exists_of_bind hc
    cases hc
    obtain ⟨own, rfl, hown⟩ := reads_coalesced hi hright
    exact hreads.extend (_ :: own) fun _ h => .coalesce h hown
  · cases hc
    exact hreads.imp fun _ => .ofJoined
termination_by lexemes.length
decreasing_by exact Nat.lt_of_succ_lt ‹_›

theorem reads_choice (hi : Sound inner) {lexemes rest : List Lexeme} {e : Expr}
    {h : lexemes.length ≤ bound} {hr : rest.length < lexemes.length}
    (hc : choice last inner lexemes h = .ok ⟨(e, rest), hr⟩) :
    Reads .choice lexemes [e] rest := by
  unfold choice at hc
  obtain ⟨⟨⟨condition, more⟩, h'⟩, hcondition, hc⟩ := Eval.exists_of_bind hc
  have hreads := reads_coalesced hi hcondition
  dsimp only at hc
  split at hc
  · next span more h' =>
    obtain ⟨⟨⟨yes, rest₁⟩, h₁⟩, hyes, hc⟩ := Eval.exists_of_bind hc
    obtain ⟨⟨⟨_, rest₂⟩, h₂⟩, hcolon, hc⟩ := Eval.exists_of_bind hc
    obtain ⟨⟨⟨no, rest₃⟩, h₃⟩, hno, hc⟩ := Eval.exists_of_bind hc
    cases hc
    obtain ⟨others, rfl, hothers⟩ := hi _ _ _ _ _ hno
    obtain ⟨colon, rfl⟩ := of_expect hcolon
    obtain ⟨own, rfl, hown⟩ := hi _ _ _ _ _ hyes
    have hcut : own ++ ⟨.symbol .colon, colon⟩ :: (others ++ rest₃) =
        (own ++ ⟨.symbol .colon, colon⟩ :: others) ++ rest₃ := by
      rw [List.append_assoc, List.cons_append]
    rw [hcut] at hreads
    exact hreads.extend (_ :: (own ++ _ :: others)) fun _ h => .conditional h hown hothers
  · cases hc
    exact hreads.imp fun _ => .ofCoalesced

theorem reads_expression {last : Span} {lexemes rest : List Lexeme} {e : Expr}
    {hr : rest.length < lexemes.length}
    (he : expression last lexemes = .ok ⟨(e, rest), hr⟩) : Reads .choice lexemes [e] rest := by
  rw [expression] at he
  exact reads_choice (fun lexemes' h' e' rest' hr' he' => reads_expression he') he
termination_by lexemes.length
decreasing_by exact h'

theorem of_startsWith {symbol : Symbol} {lexemes : List Lexeme}
    (h : startsWith symbol lexemes = true) :
    ∃ span, lexemes = ⟨.symbol symbol, span⟩ :: lexemes.tail := by
  unfold startsWith at h
  split at h
  · next s span more =>
    rw [of_decide_eq_true h]
    exact ⟨span, rfl⟩
  · cases h

/-- A parameter is a name, perhaps in parentheses, with an arrow behind it. -/
theorem of_parameter {last : Span} {lexemes rest : List Lexeme} {param : String}
    (hp : parameter last lexemes = .ok (param, rest)) :
    ∃ name arrow, lexemes = ⟨.ident param, name⟩ :: ⟨.symbol .arrow, arrow⟩ :: rest ∨
      ∃ before behind, lexemes = ⟨.symbol .openParen, before⟩ :: ⟨.ident param, name⟩ ::
        ⟨.symbol .closeParen, behind⟩ :: ⟨.symbol .arrow, arrow⟩ :: rest := by
  unfold parameter at hp
  cases hopen : startsWith .openParen lexemes with
  | false =>
    rw [hopen] at hp
    dsimp only at hp
    rw [if_neg Bool.false_ne_true] at hp
    split at hp
    · next name span more =>
      rw [if_neg Bool.false_ne_true, pure_bind] at hp
      obtain ⟨⟨⟨_, rest'⟩, _⟩, harrow, hp⟩ := Eval.exists_of_bind hp
      cases hp
      obtain ⟨arrow, rfl⟩ := of_expect harrow
      exact ⟨span, arrow, .inl rfl⟩
    · cases hp
  | true =>
    obtain ⟨before, hbefore⟩ := of_startsWith hopen
    rw [hopen] at hp
    dsimp only at hp
    rw [if_pos rfl] at hp
    split at hp
    · next name span more htail =>
      rw [if_pos rfl] at hp
      obtain ⟨⟨⟨_, rest'⟩, _⟩, hclose, hp⟩ := Eval.exists_of_bind hp
      rw [pure_bind] at hp
      obtain ⟨⟨⟨_, rest''⟩, _⟩, harrow, hp⟩ := Eval.exists_of_bind hp
      cases hp
      obtain ⟨behind, rfl⟩ := of_expect hclose
      obtain ⟨arrow, rfl⟩ := of_expect harrow
      rw [htail] at hbefore
      exact ⟨span, arrow, .inr ⟨before, behind, hbefore⟩⟩
    · cases hp

end Parser

end Expr

/-- **An expression that is read is one that is spelled**: all lexemes belong to it, first its
parameter, which may stand in parentheses, and the arrow, then a derivation of its body. -/
theorem Lambda.derives_of_ofLexemes {lexemes : List Lexeme} {lambda : Lambda}
    (h : Lambda.ofLexemes lexemes = .ok lambda) :
    ∃ name arrow body, Expr.Derives .choice body [lambda.body] ∧
      (lexemes = ⟨.ident lambda.param, name⟩ :: ⟨.symbol .arrow, arrow⟩ :: body ∨
        ∃ before behind, lexemes = ⟨.symbol .openParen, before⟩ :: ⟨.ident lambda.param, name⟩ ::
          ⟨.symbol .closeParen, behind⟩ :: ⟨.symbol .arrow, arrow⟩ :: body) := by
  unfold Lambda.ofLexemes at h
  obtain ⟨⟨param, rest⟩, hparam, h⟩ := Eval.exists_of_bind h
  obtain ⟨⟨⟨body, rest'⟩, _⟩, hbody, h⟩ := Eval.exists_of_bind h
  dsimp only at h
  split at h
  · cases h
    obtain ⟨own, hown, hderives⟩ := Expr.Parser.reads_expression hbody
    rw [List.append_nil] at hown
    obtain ⟨name, arrow, hlexemes⟩ := Expr.Parser.of_parameter hparam
    exact ⟨name, arrow, rest, hown ▸ hderives, hlexemes⟩
  · cases h

end Stencil
