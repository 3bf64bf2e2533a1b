import Stencil.Proofs.Operands

/-! What is spelled is read.

A part of the parser stops where no symbol comes that goes on with what it reads (`Stratum.goesOn`).
In front of such a place it reads every derivation of its level, and all of it: a loop over operators
or suffixes comes to what a derivation spells, and goes on from there (`Expr.Parser.accepted_of_derives`). With
the other direction, a text is read as an expression just if its lexemes spell it
(`Lambda.ofLexemes_iff`). -/
namespace Stencil

namespace Expr

/-! ### Where a derivation ends -/

/-- The symbol, behind an operand, belongs to it. -/
def isSuffix (symbol : Symbol) : Bool :=
  symbol = .dot || symbol = .openBracket || symbol = .openParen

/-- The symbol, behind operands joined at these levels, goes on with them. -/
def isJoint (levels : List (Symbol → Option BinaryOp)) (symbol : Symbol) : Bool :=
  isSuffix symbol || levels.any fun op? => (op? symbol).isSome

/-- The symbol, behind what is spelled at a level, goes on with it. -/
def Stratum.goesOn : Stratum → Symbol → Bool
  | .primary, _ => false
  | .postfixed, symbol | .prefixed, symbol => isSuffix symbol
  | .joined levels, symbol => isJoint levels symbol
  | .coalesced, symbol => isJoint Parser.levels symbol || symbol = .coalesce
  | .choice, symbol => isJoint Parser.levels symbol || symbol = .coalesce || symbol = .question
  | .arguments, symbol =>
    isJoint Parser.levels symbol || symbol = .coalesce || symbol = .question || symbol = .comma

/-- What is spelled at a level ends in front of these lexemes. -/
def Stratum.EndsBefore (stratum : Stratum) (rest : List Lexeme) : Prop :=
  ∀ symbol span more, rest = ⟨.symbol symbol, span⟩ :: more → stratum.goesOn symbol = false

/-- At each level are other operators than at the tighter ones, and none that could be a suffix. -/
def Separate : List (Symbol → Option BinaryOp) → Prop
  | [] => True
  | op? :: tighter =>
    (∀ symbol op, op? symbol = some op → isJoint tighter symbol = false) ∧ Separate tighter

namespace Parser

/-- A reading gives this and leaves over the rest. -/
def Gives {α : Type} {p : α × List Lexeme → Prop} (reading : Eval { r : α × List Lexeme // p r })
    (a : α) (rest : List Lexeme) : Prop :=
  ∃ h, reading = .ok ⟨(a, rest), h⟩

section
variable {last : Span} {bound : Nat} {inner : Inner bound}

theorem gives_expect {symbol : Symbol} {wanted : EvalError.Wanted} {span : Span}
    {rest : List Lexeme} : Gives (expect last symbol wanted (⟨.symbol symbol, span⟩ :: rest)) () rest := by
  unfold expect
  dsimp only
  rw [if_pos rfl]
  exact ⟨_, rfl⟩

/-! ### Binary operators -/

variable {op? : Symbol → Option BinaryOp} {operand : Operand bound}

theorem gives_chain_of_op {left right e : Expr} {symbol : Symbol} {span : Span} {op : BinaryOp}
    {more rest rest' : List Lexeme} (hop : op? symbol = some op)
    (hright : ∀ h, Gives (operand more h) right rest')
    (hmore : ∀ h, Gives (chain op? operand (.binary op left right) rest' h) e rest)
    (h : (⟨.symbol symbol, span⟩ :: more : List Lexeme).length ≤ bound) :
    Gives (chain op? operand left (⟨.symbol symbol, span⟩ :: more) h) e rest := by
  have hm : more.length ≤ bound := Nat.le_of_succ_le h
  obtain ⟨h₁, hr⟩ := hright hm
  obtain ⟨h₂, he⟩ := hmore (Nat.le_trans (Nat.le_of_lt h₁) hm)
  rw [chain.eq_def]
  dsimp only
  split
  · next op' hop' =>
    rw [hop] at hop'
    cases hop'
    rw [hr]
    dsimp only [bind, Except.bind]
    rw [he]
    exact ⟨_, rfl⟩
  · next hn =>
    rw [hop] at hn
    cases hn

theorem gives_chain_of_end {left : Expr} {rest : List Lexeme}
    (hends : ∀ symbol span more, rest = ⟨.symbol symbol, span⟩ :: more → op? symbol = none)
    (h : rest.length ≤ bound) : Gives (chain op? operand left rest h) left rest := by
  rw [chain.eq_def]
  split
  · next symbol span more h =>
    split
    · next op hop =>
      rw [hends symbol span more rfl] at hop
      cases hop
    · exact ⟨_, rfl⟩
  · exact ⟨_, rfl⟩

/-! ### Suffixes -/

theorem gives_suffixes_of_end {e : Expr} {rest : List Lexeme}
    (hends : ∀ symbol span more, rest = ⟨.symbol symbol, span⟩ :: more → isSuffix symbol = false)
    (h : rest.length ≤ bound) : Gives (suffixes last inner e rest h) e rest := by
  rw [suffixes.eq_def]
  split
  · cases hends _ _ _ rfl
  · cases hends _ _ _ rfl
  · cases hends _ _ _ rfl
  · cases hends _ _ _ rfl
  · cases hends _ _ _ rfl
  · exact ⟨_, rfl⟩

theorem gives_suffixes_member {e e' : Expr} {name : String} {dot span : Span}
    {more rest : List Lexeme}
    (hopen : ∀ span rest, more ≠ ⟨.symbol .openParen, span⟩ :: rest)
    (hmore : ∀ h, Gives (suffixes last inner (.member e name span) more h) e' rest)
    (h : (⟨.symbol .dot, dot⟩ :: ⟨.ident name, span⟩ :: more : List Lexeme).length ≤ bound) :
    Gives (suffixes last inner e (⟨.symbol .dot, dot⟩ :: ⟨.ident name, span⟩ :: more) h) e' rest := by
  have hm : more.length ≤ bound := Nat.le_trans (Nat.le_add_right _ 2) h
  obtain ⟨h₁, he⟩ := hmore hm
  generalize hl : ⟨.symbol .dot, dot⟩ :: ⟨.ident name, span⟩ :: more = lexemes at h ⊢
  rw [suffixes.eq_def]
  split
  · cases hl
    exact absurd rfl (hopen _ _)
  · cases hl
    exact absurd rfl (hopen _ _)
  · cases hl
    rw [he]
    exact ⟨_, rfl⟩
  · next hno =>
    cases hl
    exact (hno _ _ _ _ rfl HEq.rfl).elim
  · cases hl
  · next hno _ _ =>
    cases hl
    exact (hno _ _ _ _ _ rfl HEq.rfl).elim

theorem gives_suffixes_invoke {e e' : Expr} {name : String} {dot span before behind : Span}
    {more rest : List Lexeme}
    (hmore : ∀ h, Gives (suffixes last inner (.call e name [] span) more h) e' rest)
    (h : (⟨.symbol .dot, dot⟩ :: ⟨.ident name, span⟩ :: ⟨.symbol .openParen, before⟩ ::
      ⟨.symbol .closeParen, behind⟩ :: more : List Lexeme).length ≤ bound) :
    Gives (suffixes last inner e (⟨.symbol .dot, dot⟩ :: ⟨.ident name, span⟩ ::
      ⟨.symbol .openParen, before⟩ :: ⟨.symbol .closeParen, behind⟩ :: more) h) e' rest := by
  obtain ⟨h₁, he⟩ := hmore (Nat.le_trans (Nat.le_add_right _ 4) h)
  rw [suffixes.eq_def]
  dsimp only
  rw [he]
  exact ⟨_, rfl⟩

theorem gives_suffixes_call {e e' : Expr} {name : String} {args : List Expr} {dot span before : Span}
    {lexemes more rest : List Lexeme}
    (hclose : ∀ span rest, lexemes ≠ ⟨.symbol .closeParen, span⟩ :: rest)
    (hargs : ∀ h, Gives (arguments last inner lexemes h) args more)
    (hmore : ∀ h, Gives (suffixes last inner (.call e name args span) more h) e' rest)
    (h : (⟨.symbol .dot, dot⟩ :: ⟨.ident name, span⟩ :: ⟨.symbol .openParen, before⟩ ::
      lexemes : List Lexeme).length ≤ bound) :
    Gives (suffixes last inner e (⟨.symbol .dot, dot⟩ :: ⟨.ident name, span⟩ ::
      ⟨.symbol .openParen, before⟩ :: lexemes) h) e' rest := by
  have hl : lexemes.length < bound := Nat.le_trans (Nat.le_add_right (lexemes.length + 1) 2) h
  obtain ⟨h₁, ha⟩ := hargs hl
  obtain ⟨h₂, he⟩ := hmore (Nat.le_trans (Nat.le_of_lt h₁) (Nat.le_of_lt hl))
  generalize hall : ⟨.symbol .dot, dot⟩ :: ⟨.ident name, span⟩ :: ⟨.symbol .openParen, before⟩ ::
    lexemes = all at h ⊢
  rw [suffixes.eq_def]
  split
  · cases hall
    exact absurd rfl (hclose _ _)
  · cases hall
    rw [ha]
    dsimp only [bind, Except.bind]
    rw [he]
    exact ⟨_, rfl⟩
  · next hno =>
    cases hall
    exact (hno _ _ _ rfl HEq.rfl).elim
  · next hno =>
    cases hall
    exact (hno _ _ _ _ rfl HEq.rfl).elim
  · cases hall
  · next hno _ _ =>
    cases hall
    exact (hno _ _ _ _ _ rfl HEq.rfl).elim

theorem gives_suffixes_index {e e' i : Expr} {before behind : Span} {first : Lexeme}
    {lexemes more rest : List Lexeme}
    (hindex : ∀ h, Gives (inner (first :: lexemes) h) i (⟨.symbol .closeBracket, behind⟩ :: more))
    (hmore : ∀ h, Gives (suffixes last inner (.index e i first.span) more h) e' rest)
    (h : (⟨.symbol .openBracket, before⟩ :: first :: lexemes : List Lexeme).length ≤ bound) :
    Gives (suffixes last inner e (⟨.symbol .openBracket, before⟩ :: first :: lexemes) h) e' rest := by
  obtain ⟨h₁, hi⟩ := hindex h
  obtain ⟨h₂, hc⟩ : Gives (expect last .closeBracket .indexClose
    (⟨.symbol .closeBracket, behind⟩ :: more)) () more := gives_expect
  obtain ⟨h₃, he⟩ := hmore
    (Nat.le_trans (Nat.le_of_lt (Nat.lt_trans h₂ h₁)) (Nat.le_of_lt h))
  rw [suffixes.eq_def]
  dsimp only
  rw [hi]
  dsimp only [bind, Except.bind]
  rw [hc]
  dsimp only [here]
  rw [he]
  exact ⟨_, rfl⟩

/-! ### The other parts -/

theorem gives_primary_group {e : Expr} {before behind : Span} {lexemes rest : List Lexeme}
    (hinner : ∀ h, Gives (inner lexemes h) e (⟨.symbol .closeParen, behind⟩ :: rest))
    (h : (⟨.symbol .openParen, before⟩ :: lexemes : List Lexeme).length ≤ bound) :
    Gives (primary last inner (⟨.symbol .openParen, before⟩ :: lexemes) h) e rest := by
  obtain ⟨h₁, hi⟩ := hinner h
  obtain ⟨h₂, hc⟩ : Gives (expect last .closeParen .groupClose
    (⟨.symbol .closeParen, behind⟩ :: rest)) () rest := gives_expect
  unfold primary
  dsimp only
  rw [if_pos rfl, hi]
  dsimp only [bind, Except.bind]
  rw [hc]
  exact ⟨_, rfl⟩

theorem gives_postfixed {e e' : Expr} {lexemes more rest : List Lexeme} {h : lexemes.length ≤ bound}
    (hprimary : Gives (primary last inner lexemes h) e more)
    (hmore : ∀ h, Gives (suffixes last inner e more h) e' rest) :
    Gives (postfixed last inner lexemes h) e' rest := by
  obtain ⟨h₁, hp⟩ := hprimary
  obtain ⟨h₂, he⟩ := hmore (Nat.le_trans (Nat.le_of_lt h₁) h)
  unfold postfixed
  rw [hp]
  dsimp only [bind, Except.bind]
  rw [he]
  exact ⟨_, rfl⟩

theorem gives_prefixed_of_op {e : Expr} {symbol : Symbol} {op : UnaryOp} {span : Span}
    {more rest : List Lexeme} (hop : prefixOp? symbol = some op)
    (hmore : ∀ h, Gives (prefixed last inner more h) e rest)
    (h : (⟨.symbol symbol, span⟩ :: more : List Lexeme).length ≤ bound) :
    Gives (prefixed last inner (⟨.symbol symbol, span⟩ :: more) h) (.unary op e) rest := by
  obtain ⟨h₁, he⟩ := hmore (Nat.le_of_succ_le h)
  rw [prefixed.eq_def]
  dsimp only
  split
  · next op' hop' =>
    rw [hop] at hop'
    cases hop'
    rw [he]
    exact ⟨_, rfl⟩
  · next hn =>
    rw [hop] at hn
    cases hn

/-- What does not begin with a prefix operator is an operand. -/
theorem prefixed_eq_postfixed {lexemes : List Lexeme}
    (hno : ∀ symbol span more, lexemes = ⟨.symbol symbol, span⟩ :: more → prefixOp? symbol = none)
    (h : lexemes.length ≤ bound) : prefixed last inner lexemes h = postfixed last inner lexemes h := by
  rw [prefixed.eq_def]
  split
  · next symbol span more h =>
    split
    · next op hop =>
      rw [hno symbol span more rfl] at hop
      cases hop
    · rfl
  · rfl

theorem gives_joined {tighter : List (Symbol → Option BinaryOp)} {left e : Expr}
    {lexemes more rest : List Lexeme} {h : lexemes.length ≤ bound}
    (hleft : Gives (joined last inner tighter lexemes h) left more)
    (hmore : ∀ h, Gives (chain op? (joined last inner tighter) left more h) e rest) :
    Gives (joined last inner (op? :: tighter) lexemes h) e rest := by
  obtain ⟨h₁, hl⟩ := hleft
  obtain ⟨h₂, he⟩ := hmore (Nat.le_trans (Nat.le_of_lt h₁) h)
  rw [joined]
  rw [hl]
  dsimp only [bind, Except.bind]
  rw [he]
  exact ⟨_, rfl⟩

theorem gives_coalesced_of_end {e : Expr} {lexemes rest : List Lexeme} {h : lexemes.length ≤ bound}
    (hends : ∀ span more, rest ≠ ⟨.symbol .coalesce, span⟩ :: more)
    (hjoined : Gives (joined last inner levels lexemes h) e rest) :
    Gives (coalesced last inner lexemes h) e rest := by
  obtain ⟨h₁, hj⟩ := hjoined
  rw [coalesced, hj]
  dsimp only [bind, Except.bind]
  split
  · exact absurd rfl (hends _ _)
  · exact ⟨_, rfl⟩

theorem gives_coalesced_of_more {left right : Expr} {span : Span} {lexemes more rest : List Lexeme}
    {h : lexemes.length ≤ bound}
    (hleft : Gives (joined last inner levels lexemes h) left (⟨.symbol .coalesce, span⟩ :: more))
    (hright : ∀ h, Gives (coalesced last inner more h) right rest) :
    Gives (coalesced last inner lexemes h) (.binary .coalesce left right) rest := by
  obtain ⟨h₁, hl⟩ := hleft
  obtain ⟨h₂, hr⟩ := hright (Nat.le_trans (Nat.le_of_succ_le (Nat.le_of_lt h₁)) h)
  rw [coalesced, hl]
  dsimp only [bind, Except.bind]
  rw [hr]
  exact ⟨_, rfl⟩

theorem gives_choice_of_end {e : Expr} {lexemes rest : List Lexeme} {h : lexemes.length ≤ bound}
    (hends : ∀ span more, rest ≠ ⟨.symbol .question, span⟩ :: more)
    (hcondition : Gives (coalesced last inner lexemes h) e rest) :
    Gives (choice last inner lexemes h) e rest := by
  obtain ⟨h₁, hc⟩ := hcondition
  unfold choice
  rw [hc]
  dsimp only [bind, Except.bind]
  split
  · exact absurd rfl (hends _ _)
  · exact ⟨_, rfl⟩

theorem gives_choice_of_more {condition yes no : Expr} {question colon : Span}
    {lexemes more others rest : List Lexeme} {h : lexemes.length ≤ bound}
    (hcondition : Gives (coalesced last inner lexemes h) condition
      (⟨.symbol .question, question⟩ :: more))
    (hyes : ∀ h, Gives (inner more h) yes (⟨.symbol .colon, colon⟩ :: others))
    (hno : ∀ h, Gives (inner others h) no rest) :
    Gives (choice last inner lexemes h) (.conditional condition yes no) rest := by
  obtain ⟨h₁, hc⟩ := hcondition
  have hm : more.length < bound := Nat.lt_of_lt_of_le (Nat.lt_of_succ_lt h₁) h
  obtain ⟨h₂, hy⟩ := hyes hm
  obtain ⟨h₃, hcolon⟩ : Gives (expect last .colon .conditionalColon
    (⟨.symbol .colon, colon⟩ :: others)) () others := gives_expect
  obtain ⟨h₄, hn⟩ := hno (Nat.lt_trans h₃ (Nat.lt_trans h₂ hm))
  unfold choice
  rw [hc]
  dsimp only [bind, Except.bind]
  rw [hy]
  dsimp only
  rw [hcolon]
  dsimp only
  rw [hn]
  exact ⟨_, rfl⟩

theorem gives_arguments_last {e : Expr} {close : Span} {lexemes rest : List Lexeme}
    {h : lexemes.length < bound}
    (hinner : Gives (inner lexemes h) e (⟨.symbol .closeParen, close⟩ :: rest)) :
    Gives (arguments last inner lexemes h) [e] rest := by
  obtain ⟨h₁, hi⟩ := hinner
  obtain ⟨h₂, hc⟩ : Gives (expect last .closeParen .argumentsClose
    (⟨.symbol .closeParen, close⟩ :: rest)) () rest := gives_expect
  rw [arguments, hi]
  dsimp only [bind, Except.bind]
  rw [hc]
  exact ⟨_, rfl⟩

theorem gives_arguments_more {e : Expr} {es : List Expr} {comma : Span}
    {lexemes more rest : List Lexeme} {h : lexemes.length < bound}
    (hinner : Gives (inner lexemes h) e (⟨.symbol .comma, comma⟩ :: more))
    (hmore : ∀ h, Gives (arguments last inner more h) es rest) :
    Gives (arguments last inner lexemes h) (e :: es) rest := by
  obtain ⟨h₁, hi⟩ := hinner
  obtain ⟨h₂, hes⟩ := hmore (Nat.lt_trans (Nat.lt_of_succ_lt h₁) h)
  rw [arguments, hi]
  dsimp only [bind, Except.bind]
  rw [hes]
  exact ⟨_, rfl⟩

end

/-! ### All that is spelled -/

/-- The reader of whole expressions that the parts of the parser are used with. -/
def whole (last : Span) (bound : Nat) : Inner bound :=
  fun lexemes _ => expression last lexemes

/-- What is spelled at a level is read there. For the levels with a loop this is said of where the
loop comes to, whatever it makes of the rest. -/
def Accepted (last : Span) : Stratum → List Lexeme → List Expr → Prop
  | .primary, own, es => ∀ e, es = [e] → ∀ {bound lexemes rest}, lexemes = own ++ rest →
    ∀ h, Gives (primary last (whole last bound) lexemes h) e rest
  | .postfixed, own, es => ∀ e, es = [e] → ∀ {bound lexemes rest e' rest'}, lexemes = own ++ rest →
    (∀ span more, rest ≠ ⟨.symbol .openParen, span⟩ :: more) →
    (∀ h, Gives (suffixes last (whole last bound) e rest h) e' rest') →
    ∀ h, Gives (postfixed last (whole last bound) lexemes h) e' rest'
  | .prefixed, own, es => ∀ e, es = [e] → ∀ {bound lexemes rest}, lexemes = own ++ rest →
    Stratum.prefixed.EndsBefore rest →
    ∀ h, Gives (prefixed last (whole last bound) lexemes h) e rest
  | .joined [], own, es => ∀ e, es = [e] → ∀ {bound lexemes rest}, lexemes = own ++ rest →
    (Stratum.joined []).EndsBefore rest →
    ∀ h, Gives (joined last (whole last bound) [] lexemes h) e rest
  | .joined (op? :: tighter), own, es => Separate (op? :: tighter) → ∀ e, es = [e] →
    ∀ {bound lexemes rest e' rest'}, lexemes = own ++ rest → (Stratum.joined tighter).EndsBefore rest →
    (∀ h, Gives (chain op? (joined last (whole last bound) tighter) e rest h) e' rest') →
    ∀ h, Gives (joined last (whole last bound) (op? :: tighter) lexemes h) e' rest'
  | .coalesced, own, es => ∀ e, es = [e] → ∀ {bound lexemes rest}, lexemes = own ++ rest →
    Stratum.coalesced.EndsBefore rest →
    ∀ h, Gives (coalesced last (whole last bound) lexemes h) e rest
  | .choice, own, es => ∀ e, es = [e] → ∀ {lexemes rest}, lexemes = own ++ rest →
    Stratum.choice.EndsBefore rest → Gives (expression last lexemes) e rest
  | .arguments, own, es => ∀ {bound lexemes rest close},
    lexemes = own ++ ⟨.symbol .closeParen, close⟩ :: rest →
    ∀ h, Gives (arguments last (whole last bound) lexemes h) es rest

end Parser

/-! ### Ends -/

namespace Stratum.EndsBefore
variable {rest : List Lexeme}

theorem of_imp {stratum stratum' : Stratum} (h : stratum.EndsBefore rest)
    (hi : ∀ symbol, stratum.goesOn symbol = false → stratum'.goesOn symbol = false) :
    stratum'.EndsBefore rest :=
  fun symbol span more hr => hi symbol (h symbol span more hr)

theorem of_symbol {stratum : Stratum} {symbol : Symbol} {span : Span}
    (h : stratum.goesOn symbol = false) : stratum.EndsBefore (⟨.symbol symbol, span⟩ :: rest) := by
  intro symbol' span' more hr
  cases hr
  exact h

theorem nil {stratum : Stratum} : stratum.EndsBefore [] := nofun

/-- The symbol is not the next lexeme. -/
theorem ne_cons {stratum : Stratum} {symbol : Symbol} (h : stratum.EndsBefore rest)
    (hg : stratum.goesOn symbol = true) (span : Span) (more : List Lexeme) :
    rest ≠ ⟨.symbol symbol, span⟩ :: more := by
  intro hr
  rw [h symbol span more hr] at hg
  cases hg

theorem of_cons {op? : Symbol → Option BinaryOp} {tighter : List (Symbol → Option BinaryOp)}
    (h : (joined (op? :: tighter)).EndsBefore rest) : (joined tighter).EndsBefore rest := by
  refine h.of_imp fun symbol hn => ?_
  have hn : isJoint (op? :: tighter) symbol = false := hn
  show isJoint tighter symbol = false
  unfold isJoint at hn ⊢
  rw [List.any_cons] at hn
  rw [Bool.or_eq_false_iff] at hn ⊢
  exact ⟨hn.1, (Bool.or_eq_false_iff.1 hn.2).2⟩

theorem op?_eq_none {op? : Symbol → Option BinaryOp}
    {tighter : List (Symbol → Option BinaryOp)} (h : (joined (op? :: tighter)).EndsBefore rest) :
    ∀ symbol span more, rest = ⟨.symbol symbol, span⟩ :: more → op? symbol = none := by
  intro symbol span more hr
  have hn : isJoint (op? :: tighter) symbol = false := h symbol span more hr
  unfold isJoint at hn
  rw [List.any_cons] at hn
  exact Option.isSome_eq_false_iff.1 (Bool.or_eq_false_iff.1 (Bool.or_eq_false_iff.1 hn).2).1
    |> Option.isNone_iff_eq_none.1

end Stratum.EndsBefore

theorem separate_levels : Separate Parser.levels := by
  refine ⟨?_, ?_, ?_, ?_, ?_, ?_, trivial⟩ <;> intro symbol op h <;>
    cases symbol <;> first | rfl | cases h

/-- No operand begins with a prefix operator. -/
theorem Derives.prefixOp?_eq_none {stratum : Stratum} {own : List Lexeme} {es : List Expr}
    (h : Derives stratum own es) (hs : stratum = .primary ∨ stratum = .postfixed) :
    ∃ first more, own = first :: more ∧
      ∀ symbol, first.word = .symbol symbol → Parser.prefixOp? symbol = none := by
  induction h with
  | int | float | str | named => exact ⟨_, _, rfl, nofun⟩
  | group =>
    refine ⟨_, _, rfl, fun symbol hw => ?_⟩
    cases hw
    rfl
  | ofPrimary _ ih => exact ih (.inl rfl)
  | member _ _ ih | invoke _ _ ih | call _ _ _ ih | index _ _ ih =>
    obtain ⟨first, more, rfl, hfirst⟩ := ih (.inr rfl)
    exact ⟨first, _, rfl, hfirst⟩
  | _ => rcases hs with hs | hs <;> cases hs

namespace Parser

/-- In front of an end the loop over operators comes to no more of them. -/
theorem Accepted.joined {last : Span} {levels : List (Symbol → Option BinaryOp)} {own : List Lexeme}
    {e : Expr} (h : Accepted last (.joined levels) own [e]) (hs : Separate levels) {bound : Nat}
    {lexemes rest : List Lexeme} (hl : lexemes = own ++ rest)
    (hends : (Stratum.joined levels).EndsBefore rest) (hb : lexemes.length ≤ bound) :
    Gives (Parser.joined last (whole last bound) levels lexemes hb) e rest := by
  cases levels with
  | nil => exact h e rfl hl hends hb
  | cons op? tighter =>
    exact h hs e rfl hl hends.of_cons (fun h => gives_chain_of_end hends.op?_eq_none h) hb

/-- **What is spelled is read**, at every level of the grammar. -/
theorem accepted_of_derives {stratum : Stratum} {own : List Lexeme} {es : List Expr}
    (h : Derives stratum own es) (last : Span) : Accepted last stratum own es := by
  induction h with
  | int | float | str | named =>
    rintro e ⟨⟩ bound lexemes rest rfl h
    exact ⟨_, rfl⟩
  | group _ ih =>
    rintro e ⟨⟩ bound lexemes rest hl h
    rw [List.cons_append, List.append_assoc] at hl
    subst hl
    exact gives_primary_group (fun _ => ih _ rfl rfl (.of_symbol rfl)) h
  | ofPrimary _ ih =>
    rintro e ⟨⟩ bound lexemes rest e' rest' hl _ hmore h
    exact gives_postfixed (ih _ rfl hl h) hmore
  | member name _ ih =>
    rintro e ⟨⟩ bound lexemes rest e' rest' hl hopen hmore h
    rw [List.append_assoc] at hl
    exact ih _ rfl hl nofun (fun h => gives_suffixes_member hopen hmore h) h
  | invoke name _ ih =>
    rintro e ⟨⟩ bound lexemes rest e' rest' hl _ hmore h
    rw [List.append_assoc] at hl
    exact ih _ rfl hl nofun (fun h => gives_suffixes_invoke hmore h) h
  | @call lexemes more e args dot span before behind name _ hargs ih ihargs =>
    rintro e ⟨⟩ bound lexemes rest e' rest' hl _ hmore h
    have hclose : ∀ span tail, more ++ ⟨.symbol .closeParen, behind⟩ :: rest ≠
        ⟨.symbol .closeParen, span⟩ :: tail := by
      obtain ⟨⟨first, others, rfl, hfirst⟩, _⟩ := hargs.supplied
      rintro span tail ⟨⟩
      cases hfirst
    simp only [List.append_assoc, List.cons_append, List.nil_append] at hl
    exact ih _ rfl hl nofun
      (fun h => gives_suffixes_call hclose (fun h => ihargs rfl h) hmore h) h
  | index _ hi ih ihi =>
    rintro e ⟨⟩ bound lexemes rest e' rest' hl _ hmore h
    simp only [List.append_assoc, List.cons_append, List.nil_append] at hl
    exact ih _ rfl hl nofun
      (fun h => gives_suffixes_index (fun _ => ihi _ rfl rfl (.of_symbol rfl)) hmore h) h
  | ofPostfixed hp ih =>
    rintro e ⟨⟩ bound lexemes rest hl hends h
    obtain ⟨first, more, rfl, hfirst⟩ := hp.prefixOp?_eq_none (.inr rfl)
    subst hl
    rw [prefixed_eq_postfixed]
    · exact ih _ rfl rfl (hends.ne_cons rfl) (fun h => gives_suffixes_of_end hends h) h
    · rintro symbol span tail ⟨⟩
      exact hfirst symbol rfl
  | unary hop _ ih =>
    rintro e ⟨⟩ bound lexemes rest rfl hends h
    exact gives_prefixed_of_op hop (fun h => ih _ rfl rfl hends h) h
  | ofPrefixed _ ih =>
    rintro e ⟨⟩ bound lexemes rest hl hends h
    refine ih _ rfl hl (hends.of_imp fun symbol hn => ?_) h
    exact (Bool.or_eq_false_iff.1 hn).1
  | ofTighter _ ih =>
    rintro hs e ⟨⟩ bound lexemes rest e' rest' hl hends hmore h
    exact gives_joined (ih.joined hs.2 hl hends h) hmore
  | binary _ hop _ ihl ihr =>
    rintro hs e ⟨⟩ bound lexemes rest e' rest' hl hends hmore h
    rw [List.append_assoc] at hl
    refine ihl hs _ rfl hl (.of_symbol (hs.1 _ _ hop)) (fun h => ?_) h
    exact gives_chain_of_op hop (fun h => ihr.joined hs.2 rfl hends h) hmore h
  | ofJoined _ ih =>
    rintro e ⟨⟩ bound lexemes rest hl hends h
    refine gives_coalesced_of_end (hends.ne_cons rfl) (ih.joined separate_levels hl ?_ h)
    exact hends.of_imp fun symbol hn => (Bool.or_eq_false_iff.1 hn).1
  | coalesce _ _ ihl ihr =>
    rintro e ⟨⟩ bound lexemes rest hl hends h
    rw [List.append_assoc] at hl
    exact gives_coalesced_of_more (ihl.joined separate_levels hl (.of_symbol rfl) h)
      (fun h => ihr _ rfl rfl hends h)
  | ofCoalesced _ ih =>
    rintro e ⟨⟩ lexemes rest hl hends
    rw [expression]
    refine gives_choice_of_end (hends.ne_cons (by rfl)) (ih _ rfl hl ?_ _)
    exact hends.of_imp fun symbol hn => (Bool.or_eq_false_iff.1 hn).1
  | conditional _ _ _ ihc ihy ihn =>
    rintro e ⟨⟩ lexemes rest hl hends
    rw [expression]
    simp only [List.append_assoc, List.cons_append] at hl
    exact gives_choice_of_more (ihc _ rfl hl (.of_symbol rfl) _)
      (fun _ => ihy _ rfl rfl (.of_symbol rfl)) (fun _ => ihn _ rfl rfl hends)
  | lastArgument _ ih =>
    rintro bound lexemes rest close hl h
    exact gives_arguments_last (ih _ rfl hl (.of_symbol rfl))
  | argument _ _ ih ihs =>
    rintro bound lexemes rest close hl h
    rw [List.append_assoc] at hl
    exact gives_arguments_more (ih _ rfl hl (.of_symbol rfl)) (fun h => ihs rfl h)

/-- A name and an arrow are read as a parameter. -/
theorem parameter_eq {last : Span} {param : String} {name arrow : Span} {rest : List Lexeme} :
    parameter last (⟨.ident param, name⟩ :: ⟨.symbol .arrow, arrow⟩ :: rest) = .ok (param, rest) :=
  rfl

theorem parameter_parenthesized_eq {last : Span} {param : String} {before name behind arrow : Span}
    {rest : List Lexeme} :
    parameter last (⟨.symbol .openParen, before⟩ :: ⟨.ident param, name⟩ ::
      ⟨.symbol .closeParen, behind⟩ :: ⟨.symbol .arrow, arrow⟩ :: rest) = .ok (param, rest) :=
  rfl

end Parser

end Expr

/-- The lexemes are a parameter, perhaps in parentheses, an arrow, and a derivation of a body. -/
def Lambda.Spelled (lexemes : List Lexeme) (lambda : Lambda) : Prop :=
  ∃ name arrow body, Expr.Derives .choice body [lambda.body] ∧
    (lexemes = ⟨.ident lambda.param, name⟩ :: ⟨.symbol .arrow, arrow⟩ :: body ∨
      ∃ before behind, lexemes = ⟨.symbol .openParen, before⟩ :: ⟨.ident lambda.param, name⟩ ::
        ⟨.symbol .closeParen, behind⟩ :: ⟨.symbol .arrow, arrow⟩ :: body)

/-- An expression is read from some lexemes just if they spell it. -/
theorem Lambda.ofLexemes_iff {lexemes : List Lexeme} {lambda : Lambda} :
    Lambda.ofLexemes lexemes = .ok lambda ↔ lambda.Spelled lexemes := by
  refine ⟨derives_of_ofLexemes, ?_⟩
  rintro ⟨name, arrow, body, hbody, hlexemes⟩
  have hparam : Expr.Parser.parameter (Expr.lastSpan lexemes) lexemes = .ok (lambda.param, body) := by
    rcases hlexemes with rfl | ⟨before, behind, rfl⟩
    · exact Expr.Parser.parameter_eq
    · exact Expr.Parser.parameter_parenthesized_eq
  obtain ⟨_, hread⟩ := Expr.Parser.accepted_of_derives hbody (Expr.lastSpan lexemes) _ rfl
    (List.append_nil body).symm .nil
  unfold Lambda.ofLexemes
  dsimp only
  rw [hparam]
  dsimp only [bind, Except.bind]
  rw [hread]
  rfl

end Stencil
