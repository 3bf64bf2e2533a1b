import Stencil.Proofs.Grammar
import Stencil.Proofs.Lexemes

/-! Where a text is malformed.

Each error of reading an expression has a place, and that place lies in the text. The lexer names the
characters that it could not read (`Lexeme.fails_ofText`). The parser names the next lexeme, or the last
one where the text ends too early (`Expr.Parser.here`); and since no part of it passes over the front of
its lexemes without reading it, what it names is a lexeme of the text (`Lambda.fails_ofLexemes`). -/
namespace Stencil

/-- The span begins before it ends, and ends in a text of that length. -/
def Span.Within (span : Span) (length : Nat) : Prop :=
  span.start ≤ span.stop ∧ span.stop ≤ length

/-- The characters of a text at a span. -/
def Span.of (span : Span) (text : List Char) : List Char :=
  (text.take span.stop).drop span.start

/-- The error has a place, and that is one of these. -/
def EvalError.At (places : Span → Prop) (e : EvalError) : Prop :=
  ∃ span, e.span = some span ∧ places span

theorem EvalError.At.imp {places places' : Span → Prop} {e : EvalError} (h : e.At places)
    (hp : ∀ span, places span → places' span) : e.At places' := by
  obtain ⟨span, hspan, hplace⟩ := h
  exact ⟨span, hspan, hp span hplace⟩

/-- If it fails, it is with one of these errors. -/
def Eval.Fails {α : Type} (errors : EvalError → Prop) (x : Eval α) : Prop :=
  ∀ e, x = .error e → errors e

namespace Eval.Fails
variable {α β : Type} {errors errors' : EvalError → Prop}

theorem ok (a : α) : Fails errors (.ok a : Eval α) := nofun

theorem error {e : EvalError} (h : errors e) : Fails errors (.error e : Eval α) := by
  intro e' he
  cases he
  exact h

theorem mono {x : Eval α} (h : Fails errors x) (hi : ∀ e, errors e → errors' e) : Fails errors' x :=
  fun e he => hi e (h e he)

theorem bind_of_ok {x : Eval α} {f : α → Eval β} (h : Fails errors x)
    (hf : ∀ a, x = .ok a → Fails errors (f a)) : Fails errors (x >>= f) := by
  cases x with
  | ok a => exact hf a rfl
  | error e => exact error (h e rfl)

theorem bind {x : Eval α} {f : α → Eval β} (h : Fails errors x) (hf : ∀ a, Fails errors (f a)) :
    Fails errors (x >>= f) :=
  h.bind_of_ok fun a _ => hf a

theorem map {x : Eval α} (h : Fails errors x) (f : α → β) : Fails errors (x.map f) := by
  cases x with
  | ok a => exact ok _
  | error e => exact error (h e rfl)

end Eval.Fails

/-! ### Lexemes -/

namespace Lexeme

theorem le_length_of_quoted {rest : List Char} {n : Nat} (h : quoted rest = .error n) :
    n ≤ rest.length := by
  fun_induction quoted rest generalizing n with
  | case1 | case3 => cases h; simp
  | case2 | case4 | case6 => cases h
  | case5 c rest n' hq ih => cases h; simpa using ih hq
  | case7 c rest _ _ _ n' hq ih => cases h; simpa using ih hq

/-- A number is no longer than the text that it begins. -/
theorem length_number_le (text : List Char) : (number text).2 ≤ text.length := by
  have hwhole := (List.takeWhile_prefix Char.isDigit (l := text)).length_le
  unfold number
  split
  · next d rest hdrop =>
    have hlength := congrArg List.length (List.takeWhile_append_dropWhile (p := Char.isDigit) (l := text))
    have hfraction := (List.takeWhile_prefix Char.isDigit (l := rest)).length_le
    rw [hdrop] at hlength
    split
    · simp only [List.length_append, List.length_cons] at hlength ⊢
      omega
    · exact hwhole
  · exact hwhole

/-- A word that cannot be read is malformed between its first character and the end of the text. -/
theorem fails_readWord (start : Nat) (c : Char) (rest : List Char) :
    (readWord start c rest).Fails (EvalError.At (·.Within (start + (c :: rest).length))) := by
  have hmalformed : ∀ (what : EvalError.Malformed) (n : Nat), n ≤ (c :: rest).length →
      Eval.Fails (EvalError.At (·.Within (start + (c :: rest).length)))
        (.error (malformed what start (start + n)) : Eval (Word × Nat)) := fun what n hn =>
    .error ⟨_, rfl, Nat.le_add_right start n, Nat.add_le_add_left hn start⟩
  unfold readWord
  split
  · exact .ok _
  · split
    · have hnumber := length_number_le (c :: rest)
      split
      · exact .ok _
      · next length hn =>
        rw [hn] at hnumber
        exact hmalformed _ length hnumber
    · split
      · split
        · exact .ok _
        · next length hq =>
          have hquoted := le_length_of_quoted hq
          rw [Nat.add_assoc]
          exact hmalformed _ (1 + length) (by simp only [List.length_cons]; omega)
      · split
        · exact .ok _
        · split
          · exact .ok _
          · exact hmalformed _ 1 (by simp)

theorem fails_ofChars (start : Nat) (text : List Char) :
    (ofChars start text).Fails (EvalError.At (·.Within (start + text.length))) := by
  fun_induction ofChars start text with
  | case1 => exact .ok _
  | case2 start c rest hb ih =>
    rwa [List.length_cons, Nat.add_comm rest.length, ← Nat.add_assoc]
  | case3 start c rest hb e he => exact .error (fails_readWord start c rest e he)
  | case4 start c rest hb word more hw stop e he ih =>
    have htaken := (exists_of_readWord hw).2
    rw [List.length_take] at htaken
    refine .error ((ih e he).imp fun span h => ?_)
    obtain ⟨hstart, hstop⟩ := h
    refine ⟨hstart, Nat.le_trans hstop ?_⟩
    simp only [stop, List.length_drop, List.length_cons]
    omega
  | case5 => exact .ok _

/-- **A lexeme is written at its place**, where it stands in the text. -/
theorem Spells.written {start : Nat} {text : List Char} {lexemes : List Lexeme}
    (h : Spells start text lexemes) {front : List Char} (hfront : front.length = start) :
    ∀ lexeme ∈ lexemes, lexeme.span.Within (front ++ text).length ∧
      lexeme.word.IsWritten (lexeme.span.of (front ++ text)) := by
  induction h generalizing front with
  | nil => exact List.forall_mem_nil _
  | @blank start c text lexemes hb h ih =>
    have hmore : (front ++ [c]).length = start + 1 := by simp [hfront]
    simpa using ih hmore
  | @word start c piece text word lexemes hb hw h ih =>
    have hmore : (front ++ c :: piece).length = start + 1 + piece.length := by
      rw [List.length_append, List.length_cons, hfront, Nat.add_assoc, Nat.add_comm 1]
    rw [List.forall_mem_cons]
    refine ⟨⟨⟨?_, ?_⟩, ?_⟩, ?_⟩
    · simp only [Nat.add_assoc, Nat.le_add_right]
    · rw [← hmore]
      simp
    · have hof : Span.of ⟨start, start + 1 + piece.length⟩ (front ++ (c :: piece ++ text)) =
          c :: piece := by
        rw [Span.of, ← hmore, ← List.append_assoc, List.take_left, ← hfront, List.drop_left]
      rwa [hof]
    · rw [← List.append_assoc]
      exact ih hmore

theorem fails_ofText (text : String) : (ofText text).Fails (EvalError.At (·.Within text.toList.length)) := by
  simpa [ofText] using fails_ofChars 0 text.toList

end Lexeme

/-! ### The parser -/

namespace Expr.Parser
variable {places : Span → Prop} {last : Span} {bound : Nat} {inner : Inner bound}
  {lexemes rest : List Lexeme}

/-- Each of the lexemes stands at one of these places. -/
def Standing (places : Span → Prop) (lexemes : List Lexeme) : Prop :=
  ∀ lexeme ∈ lexemes, places lexeme.span

theorem Standing.tail {lexeme : Lexeme} (h : Standing places (lexeme :: rest)) : Standing places rest :=
  fun other hother => h other (List.mem_cons_of_mem lexeme hother)

/-- So does each of those that a reading leaves over. -/
theorem Reads.standing {stratum : Stratum} {es : List Expr} (h : Reads stratum lexemes es rest)
    (hl : Standing places lexemes) : Standing places rest := by
  obtain ⟨own, rfl, -⟩ := h
  exact fun lexeme hmem => hl lexeme (List.mem_append_right own hmem)

theorem Standing.here (hl : Standing places lexemes) (hlast : places last) :
    places (here last lexemes) := by
  cases lexemes with
  | nil => exact hlast
  | cons lexeme rest => exact hl lexeme List.mem_cons_self

theorem Standing.expected {α : Type} (hl : Standing places lexemes) (hlast : places last)
    (wanted : EvalError.Wanted) :
    Eval.Fails (EvalError.At places) (.error (expected last wanted lexemes) : Eval α) :=
  .error ⟨_, rfl, hl.here hlast⟩

theorem fails_expect {symbol : Symbol} {wanted : EvalError.Wanted} (hl : Standing places lexemes)
    (hlast : places last) : Eval.Fails (EvalError.At places) (expect last symbol wanted lexemes) := by
  unfold expect
  split
  · split
    · exact .ok _
    · exact hl.expected hlast wanted
  · exact hl.expected hlast wanted

theorem standing_expect {symbol : Symbol} {wanted : EvalError.Wanted}
    {hr : rest.length < lexemes.length} (h : expect last symbol wanted lexemes = .ok ⟨((), rest), hr⟩)
    (hl : Standing places lexemes) : Standing places rest := by
  obtain ⟨span, rfl⟩ := of_expect h
  exact hl.tail

/-- A reader of whole expressions whose errors name these places, if the lexemes stand there. -/
def Failing (places : Span → Prop) (inner : Inner bound) : Prop :=
  ∀ lexemes h, Standing places lexemes → Eval.Fails (EvalError.At places) (inner lexemes h)

section
variable (hs : Sound inner) (hp : Failing places inner) (hlast : places last)

include hs hp hlast

theorem fails_primary (hl : Standing places lexemes) (h : lexemes.length ≤ bound) :
    Eval.Fails (EvalError.At places) (primary last inner lexemes h) := by
  unfold primary
  split
  · exact .error ⟨_, rfl, hlast⟩
  · exact .ok _
  · exact .ok _
  · exact .ok _
  · exact .ok _
  · split
    · refine (hp _ _ hl.tail).bind_of_ok fun r he => ?_
      obtain ⟨⟨e, rest⟩, h'⟩ := r
      exact (fails_expect ((hs _ _ _ _ _ he).standing hl.tail) hlast).bind fun _ => .ok _
    · exact .error ⟨_, rfl, hl _ List.mem_cons_self⟩

theorem fails_arguments {lexemes : List Lexeme} (hl : Standing places lexemes) (h : lexemes.length < bound) :
    Eval.Fails (EvalError.At places) (arguments last inner lexemes h) := by
  rw [arguments]
  refine (hp _ _ hl).bind_of_ok fun r he => ?_
  obtain ⟨⟨e, rest⟩, h'⟩ := r
  have hrest := (hs _ _ _ _ _ he).standing hl
  dsimp only
  split
  · next comma more h' =>
    exact (fails_arguments hrest.tail _).bind fun _ => .ok _
  · exact (fails_expect hrest hlast).bind fun _ => .ok _
termination_by lexemes.length
decreasing_by exact Nat.lt_of_succ_lt ‹_›

theorem fails_suffixes (e : Expr) (hl : Standing places lexemes) (h : lexemes.length ≤ bound) :
    Eval.Fails (EvalError.At places) (suffixes last inner e lexemes h) := by
  obtain ⟨n, hn⟩ : ∃ n, lexemes.length = n := ⟨_, rfl⟩
  induction n using Nat.strongRecOn generalizing lexemes e with
  | ind n ih =>
    rw [suffixes.eq_def]
    split
    · refine (ih _ ?_ _ hl.tail.tail.tail.tail _ rfl).bind fun _ => .ok _
      simp only [List.length_cons] at hn
      omega
    · refine (fails_arguments hs hp hlast hl.tail.tail.tail _).bind_of_ok fun r hargs => ?_
      obtain ⟨⟨args, rest⟩, h'⟩ := r
      obtain ⟨close, hreads⟩ := reads_arguments hs hargs
      refine (ih _ ?_ _ (hreads.standing hl.tail.tail.tail).tail _ rfl).bind fun _ => .ok _
      simp only [List.length_cons] at hn h'
      omega
    · refine (ih _ ?_ _ hl.tail.tail _ rfl).bind fun _ => .ok _
      simp only [List.length_cons] at hn
      omega
    · exact hl.tail.expected hlast _
    · refine (hp _ _ hl.tail).bind_of_ok fun r hindex => ?_
      obtain ⟨⟨i, rest⟩, h₁⟩ := r
      have hrest := (hs _ _ _ _ _ hindex).standing hl.tail
      refine (fails_expect hrest hlast).bind_of_ok fun r hclose => ?_
      obtain ⟨⟨_, rest'⟩, h₂⟩ := r
      refine (ih _ ?_ _ (standing_expect hclose hrest) _ rfl).bind fun _ => .ok _
      simp only [List.length_cons] at hn h₁ h₂
      omega
    · exact .ok _

theorem fails_postfixed (hl : Standing places lexemes) (h : lexemes.length ≤ bound) :
    Eval.Fails (EvalError.At places) (postfixed last inner lexemes h) := by
  refine (fails_primary hs hp hlast hl h).bind_of_ok fun r he => ?_
  obtain ⟨⟨e, rest⟩, h'⟩ := r
  have hrest := (reads_primary hs he).standing hl
  exact (fails_suffixes hs hp hlast e hrest _).bind fun _ => .ok _

theorem fails_prefixed {lexemes : List Lexeme} (hl : Standing places lexemes)
    (h : lexemes.length ≤ bound) : Eval.Fails (EvalError.At places) (prefixed last inner lexemes h) := by
  rw [prefixed.eq_def]
  split
  · split
    · exact (fails_prefixed hl.tail _).bind fun _ => .ok _
    · exact fails_postfixed hs hp hlast hl _
  · exact fails_postfixed hs hp hlast hl _

end

/-- A reader of operands whose errors name these places. -/
def FailingAt (places : Span → Prop) (operand : Operand bound) : Prop :=
  ∀ lexemes h, Standing places lexemes → Eval.Fails (EvalError.At places) (operand lexemes h)

theorem fails_chain {op? : Symbol → Option BinaryOp} {stratum : Stratum} {operand : Operand bound}
    (hs : SoundAt stratum operand) (hp : FailingAt places operand) (left : Expr)
    (hl : Standing places lexemes) (h : lexemes.length ≤ bound) :
    Eval.Fails (EvalError.At places) (chain op? operand left lexemes h) := by
  obtain ⟨n, hn⟩ : ∃ n, lexemes.length = n := ⟨_, rfl⟩
  induction n using Nat.strongRecOn generalizing lexemes left with
  | ind n ih =>
    rw [chain.eq_def]
    split
    · split
      · refine (hp _ _ hl.tail).bind_of_ok fun r hright => ?_
        obtain ⟨⟨right, rest⟩, h'⟩ := r
        have hrest := (hs _ _ _ _ _ hright).standing hl.tail
        refine (ih _ ?_ _ hrest _ rfl).bind fun _ => .ok _
        simp only [List.length_cons] at hn h'
        omega
      · exact .ok _
    · exact .ok _

section
variable (hs : Sound inner) (hp : Failing places inner) (hlast : places last)

include hs hp hlast

theorem failingAt_joined (levels : List (Symbol → Option BinaryOp)) :
    FailingAt places (joined last inner levels) := by
  induction levels with
  | nil => exact fun lexemes h hl => fails_prefixed hs hp hlast hl h
  | cons op? tighter ih =>
    have hsound : SoundAt (.joined tighter) (joined last inner tighter) := soundAt_joined hs tighter
    intro lexemes h hl
    refine (ih lexemes h hl).bind_of_ok fun r hleft => ?_
    obtain ⟨⟨left, rest⟩, h'⟩ := r
    have hrest := (hsound _ _ _ _ _ hleft).standing hl
    exact (fails_chain hsound ih left hrest _).bind fun _ => .ok _

theorem fails_coalesced {lexemes : List Lexeme} (hl : Standing places lexemes)
    (h : lexemes.length ≤ bound) : Eval.Fails (EvalError.At places) (coalesced last inner lexemes h) := by
  rw [coalesced]
  refine (failingAt_joined hs hp hlast levels lexemes h hl).bind_of_ok fun r hleft => ?_
  obtain ⟨⟨left, rest⟩, h'⟩ := r
  have hrest := (soundAt_joined hs levels _ _ _ _ _ hleft).standing hl
  dsimp only
  split
  · exact (fails_coalesced hrest.tail _).bind fun _ => .ok _
  · exact .ok _
termination_by lexemes.length
decreasing_by exact Nat.lt_of_succ_lt ‹_›

theorem fails_choice (hl : Standing places lexemes) (h : lexemes.length ≤ bound) :
    Eval.Fails (EvalError.At places) (choice last inner lexemes h) := by
  unfold choice
  refine (fails_coalesced hs hp hlast hl h).bind_of_ok fun r hcondition => ?_
  obtain ⟨⟨condition, rest⟩, h'⟩ := r
  have hrest := (reads_coalesced hs hcondition).standing hl
  dsimp only
  split
  · refine (hp _ _ hrest.tail).bind_of_ok fun r hyes => ?_
    obtain ⟨⟨yes, rest₁⟩, h₁⟩ := r
    have hrest₁ := (hs _ _ _ _ _ hyes).standing hrest.tail
    refine (fails_expect hrest₁ hlast).bind_of_ok fun r hcolon => ?_
    obtain ⟨⟨_, rest₂⟩, h₂⟩ := r
    exact (hp _ _ (standing_expect hcolon hrest₁)).bind fun _ => .ok _
  · exact .ok _

end

theorem fails_expression (hlast : places last) {lexemes : List Lexeme}
    (hl : Standing places lexemes) : Eval.Fails (EvalError.At places) (expression last lexemes) := by
  rw [expression]
  exact fails_choice (fun _ _ _ _ _ he => reads_expression he)
    (fun lexemes' h' hl' => fails_expression hlast hl') hlast hl _
termination_by lexemes.length
decreasing_by exact h'

theorem fails_parameter (hlast : places last) (hl : Standing places lexemes) :
    Eval.Fails (EvalError.At places) (parameter last lexemes) := by
  have hopened : Standing places (if startsWith .openParen lexemes then lexemes.tail else lexemes) := by
    split
    · exact fun lexeme hmem => hl lexeme (List.mem_of_mem_tail hmem)
    · exact hl
  unfold parameter
  dsimp only
  split
  · next name span rest hrest =>
    rw [hrest] at hopened
    split
    · refine (fails_expect hopened.tail hlast).bind_of_ok fun r hclose => ?_
      obtain ⟨⟨_, rest'⟩, _⟩ := r
      exact (fails_expect (standing_expect hclose hopened.tail) hlast).bind fun _ => .ok _
    · exact (fails_expect hopened.tail hlast).bind fun _ => .ok _
  · exact hopened.expected hlast _

theorem standing_parameter {param : String} (h : parameter last lexemes = .ok (param, rest))
    (hl : Standing places lexemes) : Standing places rest := by
  obtain ⟨name, arrow, rfl | ⟨before, behind, rfl⟩⟩ := of_parameter h
  · exact hl.tail.tail
  · exact hl.tail.tail.tail.tail

theorem place_lastSpan (hl : Standing places lexemes) (hnone : lexemes = [] → places ⟨0, 0⟩) :
    places (lastSpan lexemes) := by
  unfold lastSpan
  cases h : lexemes.getLast? with
  | none => exact hnone (List.getLast?_eq_none_iff.1 h)
  | some lexeme => exact hl lexeme (List.mem_of_getLast? h)

end Expr.Parser

namespace Lambda
open Expr.Parser

/-- **An error of the parser names a lexeme**, or the start of the text where there is none. -/
theorem fails_ofLexemes (lexemes : List Lexeme) :
    (ofLexemes lexemes).Fails (EvalError.At fun span =>
      (∃ lexeme ∈ lexemes, lexeme.span = span) ∨ lexemes = [] ∧ span = ⟨0, 0⟩) := by
  have hl : Standing (fun span => (∃ lexeme ∈ lexemes, lexeme.span = span) ∨
      lexemes = [] ∧ span = ⟨0, 0⟩) lexemes := fun lexeme hmem => .inl ⟨lexeme, hmem, rfl⟩
  have hlast := place_lastSpan hl fun hnil => .inr ⟨hnil, rfl⟩
  unfold ofLexemes
  refine (fails_parameter hlast hl).bind_of_ok fun r hparam => ?_
  obtain ⟨param, rest⟩ := r
  have hrest := standing_parameter hparam hl
  refine (fails_expression hlast hrest).bind_of_ok fun r hbody => ?_
  obtain ⟨⟨body, rest'⟩, _⟩ := r
  have hrest' := (reads_expression hbody).standing hrest
  dsimp only
  split
  · exact .ok _
  · exact .error ⟨_, rfl, hrest' _ List.mem_cons_self⟩

/-- **An error of reading a text has a place in it.** -/
theorem fails_parse (text : String) : (parse text).Fails (EvalError.At (·.Within text.toList.length)) := by
  refine (Lexeme.fails_ofText text).bind_of_ok fun lexemes hlexemes => ?_
  refine (fails_ofLexemes lexemes).mono fun e he => he.imp fun span hspan => ?_
  obtain ⟨lexeme, hmem, rfl⟩ | ⟨-, rfl⟩ := hspan
  · have hspells := Lexeme.spells_of_ofChars hlexemes
    exact (hspells.written (List.length_nil) lexeme hmem).1
  · exact ⟨Nat.le_refl 0, Nat.zero_le _⟩

/-- Without lexemes that is the start, at the end of the text the last one, and for a quote that is not
closed all that stands behind it. -/
example :
    let place? := fun text => (parse text).casesOn (fun e => e.span) fun _ => none
    place? "" = some ⟨0, 0⟩ ∧ place? "é => é +" = some ⟨7, 8⟩ ∧ place? "é => é \"a" = some ⟨7, 9⟩ := by
  decide +kernel

end Lambda

end Stencil
