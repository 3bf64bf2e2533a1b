import Stencil.Proofs.Blame

/-! Spans point into the text of an expression.

A lexeme stands where it is written (`Lexeme.Spells.written`), and a node takes its span from a lexeme:
from the one that gives it its name, or from the first one of an index (`Expr.Derives.pointsAt`). Errors of
reading a text and of evaluating what was read have no other places (`Lambda.spans_point_into_text`). -/
namespace Stencil

/-- A name is written letter by letter. -/
theorem Word.IsWritten.eq_toList {piece : List Char} {name : String}
    (h : (Word.ident name).IsWritten piece) : piece = name.toList := by
  generalize hword : Word.ident name = word at h
  cases h with
  | ident => cases hword; rw [String.toList_ofList]
  | _ => cases hword

namespace Expr

/-- What the span of a node says of the text: that its name stands there or, for an index, the first lexeme
behind the bracket that opens it. -/
def PointsAt (text : List Char) (lexemes : List Lexeme) : Expr → Prop
  | .ident name span | .member _ name span | .call _ name _ span =>
    span.Within text.length ∧ span.of text = name.toList
  | .index target position span =>
    ∃ front first more before behind,
      front ++ ⟨.symbol .openBracket, before⟩ :: (first :: more ++ [⟨.symbol .closeBracket, behind⟩])
        <:+: lexemes ∧
      Derives .postfixed front [target] ∧ Derives .choice (first :: more) [position] ∧
      first.span = span ∧ span.Within text.length ∧ first.word.IsWritten (span.of text)
  | _ => True

/-- The lexemes stand in a text where they are written. -/
def Written (text : List Char) (lexemes : List Lexeme) : Prop :=
  ∀ lexeme ∈ lexemes, lexeme.span.Within text.length ∧ lexeme.word.IsWritten (lexeme.span.of text)

variable {text : List Char} {lexemes : List Lexeme}

/-- A name stands where its lexeme does. -/
theorem Written.name (h : Written text lexemes) {name : String} {span : Span}
    (hmem : ⟨.ident name, span⟩ ∈ lexemes) : span.Within text.length ∧ span.of text = name.toList := by
  obtain ⟨hwithin, hwritten⟩ := h _ hmem
  exact ⟨hwithin, hwritten.eq_toList⟩

theorem infix_of_append {front back : List Lexeme} (h : front ++ back <:+: lexemes) :
    front <:+: lexemes ∧ back <:+: lexemes :=
  ⟨(List.prefix_append front back).isInfix.trans h, (List.suffix_append front back).isInfix.trans h⟩

theorem infix_of_cons {lexeme : Lexeme} {back : List Lexeme} (h : lexeme :: back <:+: lexemes) :
    back <:+: lexemes :=
  (List.suffix_cons lexeme back).isInfix.trans h

/-- **Each node points at what it was read from.** -/
theorem Derives.pointsAt {stratum : Stratum} {own : List Lexeme} {es : List Expr}
    (h : Derives stratum own es) (hw : Written text lexemes) (hown : own <:+: lexemes) :
    ∀ node ∈ nodesOfAll es, node.PointsAt text lexemes := by
  induction h with
  | int | float | str => simp [nodes, PointsAt]
  | named name span =>
    have hname := hw.name (hown.subset List.mem_cons_self)
    rw [nodesOfAll_singleton]
    unfold Parser.named
    split <;> simp [nodes, PointsAt, hname]
  | group _ ih => exact ih (infix_of_append (infix_of_cons hown)).1
  | ofPrimary _ ih | ofPostfixed _ ih | ofPrefixed _ ih | ofTighter _ ih | ofJoined _ ih
  | ofCoalesced _ ih | lastArgument _ ih => exact ih hown
  | member name h ih =>
    obtain ⟨hfront, hback⟩ := infix_of_append hown
    rw [nodesOfAll_singleton] at ih ⊢
    rw [nodes, List.forall_mem_cons]
    exact ⟨hw.name ((infix_of_cons hback).subset List.mem_cons_self), ih hfront⟩
  | invoke name h ih =>
    obtain ⟨hfront, hback⟩ := infix_of_append hown
    rw [nodesOfAll_singleton] at ih ⊢
    rw [nodes, nodesOfAll, List.append_nil, List.forall_mem_cons]
    exact ⟨hw.name ((infix_of_cons hback).subset List.mem_cons_self), ih hfront⟩
  | call name h hargs ih iha =>
    obtain ⟨hfront, hback⟩ := infix_of_append hown
    have hname := infix_of_cons hback
    have hmore := (infix_of_append (infix_of_cons (infix_of_cons hname))).1
    rw [nodesOfAll_singleton] at ih ⊢
    rw [nodes, List.forall_mem_cons, List.forall_mem_append]
    exact ⟨hw.name (hname.subset List.mem_cons_self), ih hfront, iha hmore⟩
  | index h hi ih ihi =>
    obtain ⟨hfront, hback⟩ := infix_of_append hown
    have hindex := infix_of_cons hback
    have hfirst := hw _ (hindex.subset List.mem_cons_self)
    rw [nodesOfAll_singleton] at ih ihi ⊢
    rw [nodes, List.forall_mem_cons, List.forall_mem_append]
    exact ⟨⟨_, _, _, _, _, hown, h, hi, rfl, hfirst⟩, ih hfront, ihi (infix_of_append hindex).1⟩
  | unary hop h ih =>
    rw [nodesOfAll_singleton] at ih ⊢
    rw [nodes, List.forall_mem_cons]
    exact ⟨trivial, ih (infix_of_cons hown)⟩
  | binary hl hop hr ihl ihr | coalesce hl hr ihl ihr =>
    obtain ⟨hfront, hback⟩ := infix_of_append hown
    rw [nodesOfAll_singleton] at ihl ihr ⊢
    rw [nodes, List.forall_mem_cons, List.forall_mem_append]
    exact ⟨trivial, ihl hfront, ihr (infix_of_cons hback)⟩
  | conditional hc hy hn ihc ihy ihn =>
    obtain ⟨hfront, hback⟩ := infix_of_append hown
    obtain ⟨hmore, hothers⟩ := infix_of_append (infix_of_cons hback)
    rw [nodesOfAll_singleton] at ihc ihy ihn ⊢
    rw [nodes, List.forall_mem_cons, List.forall_mem_append, List.forall_mem_append]
    exact ⟨trivial, ⟨ihc hfront, ihy hmore⟩, ihn (infix_of_cons hothers)⟩
  | argument h hs ih ihs =>
    obtain ⟨hfront, hback⟩ := infix_of_append hown
    rw [nodesOfAll_singleton] at ih
    rw [nodesOfAll, List.forall_mem_append]
    exact ⟨ih hfront, ihs (infix_of_cons hback)⟩

end Expr

/-- Each node of what is read points into the text. -/
theorem Lambda.pointsAt_of_parse {text : String} {lambda : Lambda} (h : Lambda.parse text = .ok lambda) :
    ∃ lexemes, Lexeme.ofText text = .ok lexemes ∧
      ∀ node ∈ lambda.body.nodes, node.PointsAt text.toList lexemes := by
  obtain ⟨lexemes, hlexemes, h⟩ := Eval.exists_of_bind h
  refine ⟨lexemes, hlexemes, ?_⟩
  have hwritten : Expr.Written text.toList lexemes :=
    (Lexeme.spells_of_ofChars hlexemes).written List.length_nil
  obtain ⟨name, arrow, body, hbody, hcut⟩ := derives_of_ofLexemes h
  have hsuffix : body <:+: lexemes := by
    obtain rfl | ⟨before, behind, rfl⟩ := hcut
    · exact (List.suffix_append [_, _] body).isInfix
    · exact (List.suffix_append [_, _, _, _] body).isInfix
  simpa using hbody.pointsAt hwritten hsuffix

/-- **Spans point into the text of an expression.** An error of reading a text has a place in it. In what
is read, each name stands in the text at the span of its node, and the span of an index is that of its
first lexeme. An error of evaluating that has a place has the span of a node, unless a method of the host
gave it. -/
theorem Lambda.spans_point_into_text (text : String) :
    (∀ e, Lambda.parse text = .error e →
      ∃ span, e.span = some span ∧ span.Within text.toList.length) ∧
    ∀ lambda, Lambda.parse text = .ok lambda →
      (∃ lexemes, Lexeme.ofText text = .ok lexemes ∧
        ∀ node ∈ lambda.body.nodes, node.PointsAt text.toList lexemes) ∧
      ∀ vars e span, lambda.eval vars = .error e → e.span = some span →
        (∃ node ∈ lambda.body.nodes, node.span? = some span) ∨
          lambda.body.HostGave lambda.param vars e :=
  ⟨fails_parse text, fun lambda h =>
    ⟨pointsAt_of_parse h, fun vars e span he hspan => lambda.blames_eval vars e he span hspan⟩⟩

end Stencil
