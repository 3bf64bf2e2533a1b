import Stencil.Proofs.Spacing
import Stencil.Proofs.Spelling

/-! Printing an expression, and reading it back.

How tightly an expression holds together is its rank, from 0 for a conditional to 10 for a literal or a
name. Where another expression wants something tighter, it is printed in parentheses, and nowhere else
(`Expr.words`). What is printed is a derivation in the grammar, at the level of its rank
(`Expr.Writable.spelledAt`), so it is read back, whatever blanks are between its words
(`Lambda.parse_of_spaced`). -/
namespace Stencil

/-! ### Words -/

def UnaryOp.symbol : UnaryOp → Symbol
  | not => .bang
  | negate => .minus

namespace BinaryOp

def symbol : BinaryOp → Symbol
  | add => .plus
  | subtract => .minus
  | multiply => .star
  | divide => .slash
  | remainder => .percent
  | equal => .equal
  | notEqual => .notEqual
  | less => .less
  | lessEqual => .lessEqual
  | greater => .greater
  | greaterEqual => .greaterEqual
  | and => .and
  | or => .or
  | coalesce => .coalesce

/-- How tightly an operator holds its operands together. -/
def rank : BinaryOp → Nat
  | coalesce => 1
  | or => 2
  | and => 3
  | equal | notEqual => 4
  | less | lessEqual | greater | greaterEqual => 5
  | add | subtract => 6
  | multiply | divide | remainder => 7

theorem rank_le (op : BinaryOp) : op.rank ≤ 10 := by
  cases op <;> decide

/-- The least ranks of the left and the right operand that go without parentheses. All operators but
one group to the left. -/
def sides : BinaryOp → Nat × Nat
  | coalesce => (coalesce.rank + 1, coalesce.rank)
  | op => (op.rank, op.rank + 1)

theorem sides_le (op : BinaryOp) : op.sides.1 ≤ 10 ∧ op.sides.2 ≤ 10 := by
  cases op <;> decide

end BinaryOp

namespace Expr

def rank : Expr → Nat
  | conditional .. => 0
  | binary op .. => op.rank
  | unary .. => 8
  | member .. | call .. | index .. => 9
  | literal _ | ident .. => 10

theorem rank_le (e : Expr) : e.rank ≤ 10 := by
  cases e with
  | binary op => exact op.rank_le
  | _ => simp only [rank, Nat.reduceLeDiff, Nat.le_refl]

/-- The words of an expression in a place for expressions of some rank or a higher one. -/
def grouped (least : Nat) (e : Expr) (words : List Word) : List Word :=
  if e.rank < least then .symbol .openParen :: (words ++ [.symbol .closeParen]) else words

def literalWords : Value → List Word
  | .null => [.ident "null"]
  | .bool b => [.ident (if b then "true" else "false")]
  | .int i => [.int i]
  | .float x => [.float x]
  | .str s => [.str s]
  | .list _ => []

mutual

/-- The words of an expression, with parentheses only where its parts would come apart. -/
def words : Expr → List Word
  | literal value => literalWords value
  | ident name _ => [.ident name]
  | member target name _ => grouped 9 target target.words ++ [.symbol .dot, .ident name]
  | call target method args _ =>
    grouped 9 target target.words ++ .symbol .dot :: .ident method :: .symbol .openParen ::
      (argumentWords args ++ [.symbol .closeParen])
  | index target position _ =>
    grouped 9 target target.words ++ .symbol .openBracket ::
      (position.words ++ [.symbol .closeBracket])
  | unary op operand => .symbol op.symbol :: grouped 8 operand operand.words
  | binary op left right =>
    grouped op.sides.1 left left.words ++ .symbol op.symbol ::
      grouped op.sides.2 right right.words
  | conditional condition yes no =>
    grouped 1 condition condition.words ++ .symbol .question ::
      (yes.words ++ .symbol .colon :: no.words)

def argumentWords : List Expr → List Word
  | [] => []
  | [e] => e.words
  | e :: e' :: es => e.words ++ .symbol .comma :: argumentWords (e' :: es)

end

mutual

/-- The expression without the places of its names. -/
def unplaced : Expr → Expr
  | literal value => literal value
  | ident name _ => ident name ⟨0, 0⟩
  | member target name _ => member target.unplaced name ⟨0, 0⟩
  | call target method args _ => call target.unplaced method (unplacedAll args) ⟨0, 0⟩
  | index target position _ => index target.unplaced position.unplaced ⟨0, 0⟩
  | unary op operand => unary op operand.unplaced
  | binary op left right => binary op left.unplaced right.unplaced
  | conditional condition yes no => conditional condition.unplaced yes.unplaced no.unplaced

def unplacedAll : List Expr → List Expr
  | [] => []
  | e :: es => e.unplaced :: unplacedAll es

end

/-- The value has a literal of its own: it is a number that is whole and not negative, or a text, or a
constant. -/
def IsLiteral : Value → Prop
  | .null | .bool _ | .str _ => True
  | .int i => 0 ≤ i.toInt
  | .float _ | .list _ => False

/-- The names that stand for constants. -/
def constants : List String :=
  ["true", "false", "null"]

/-- Some text is read as the expression: its values have literals, and its names are identifiers and
do not stand for constants. -/
inductive Writable : Expr → Prop
  | literal {value : Value} (h : IsLiteral value) : Writable (.literal value)
  | ident {name : String} (span : Span) (hn : Lexeme.isIdentifier name = true) (hc : name ∉ constants) :
      Writable (.ident name span)
  | member {target : Expr} {name : String} (span : Span) (h : Writable target)
      (hn : Lexeme.isIdentifier name = true) : Writable (.member target name span)
  | call {target : Expr} {method : String} {args : List Expr} (span : Span) (h : Writable target)
      (hm : Lexeme.isIdentifier method = true) (ha : ∀ e ∈ args, Writable e) :
      Writable (.call target method args span)
  | index {target position : Expr} (span : Span) (h : Writable target) (hp : Writable position) :
      Writable (.index target position span)
  | unary {operand : Expr} (op : UnaryOp) (h : Writable operand) : Writable (.unary op operand)
  | binary {left right : Expr} (op : BinaryOp) (hl : Writable left) (hr : Writable right) :
      Writable (.binary op left right)
  | conditional {condition yes no : Expr} (hc : Writable condition) (hy : Writable yes)
      (hn : Writable no) : Writable (.conditional condition yes no)

/-! ### Derivations -/

namespace Stratum

/-- The level of the grammar for expressions of a rank or a higher one. -/
def ofRank : Nat → Stratum
  | 0 => choice
  | 1 => coalesced
  | 8 => prefixed
  | 9 => postfixed
  | 10 => primary
  | rank => joined (Parser.levels.drop (rank - 2))

end Stratum

open Stratum (ofRank)

theorem Derives.loosen {lexemes : List Lexeme} {e : Expr} {rank : Nat} (hr : rank < 10)
    (h : Derives (ofRank (rank + 1)) lexemes [e]) : Derives (ofRank rank) lexemes [e] := by
  match rank, hr with
  | 0, _ => exact .ofCoalesced h
  | 1, _ => exact .ofJoined h
  | 2, _ | 3, _ | 4, _ | 5, _ | 6, _ => exact .ofTighter h
  | 7, _ => exact .ofTighter (.ofPrefixed h)
  | 8, _ => exact .ofPostfixed h
  | 9, _ => exact .ofPrimary h

/-- What is spelled at a level is spelled at each looser one. -/
theorem Derives.of_le {lexemes : List Lexeme} {e : Expr} {rank least : Nat} (hl : least ≤ rank)
    (hr : rank ≤ 10) (h : Derives (ofRank rank) lexemes [e]) : Derives (ofRank least) lexemes [e] := by
  induction rank, hl using Nat.le_induction with
  | base => exact h
  | succ rank _ ih => exact ih (Nat.le_of_lt hr) (h.loosen hr)

theorem Derives.ofBinary {lexemes more : List Lexeme} {left right : Expr} {span : Span} (op : BinaryOp)
    (hl : Derives (ofRank op.sides.1) lexemes [left]) (hr : Derives (ofRank op.sides.2) more [right]) :
    Derives (ofRank op.rank) (lexemes ++ ⟨.symbol op.symbol, span⟩ :: more)
      [.binary op left right] := by
  cases op with
  | coalesce => exact .coalesce hl hr
  | multiply | divide | remainder => exact .binary hl rfl (.ofPrefixed hr)
  | _ => exact .binary hl rfl hr

theorem exists_of_map_eq_cons {lexemes : List Lexeme} {word : Word} {words : List Word}
    (h : lexemes.map (·.word) = word :: words) :
    ∃ span rest, lexemes = ⟨word, span⟩ :: rest ∧ rest.map (·.word) = words := by
  obtain ⟨⟨word', span⟩, rest, rfl, rfl, hrest⟩ := List.map_eq_cons_iff.1 h
  exact ⟨span, rest, rfl, hrest⟩

theorem exists_of_map_eq_singleton {lexemes : List Lexeme} {word : Word}
    (h : lexemes.map (·.word) = [word]) : ∃ span, lexemes = [⟨word, span⟩] := by
  obtain ⟨span, rest, rfl, hnil⟩ := exists_of_map_eq_cons h
  cases List.map_eq_nil_iff.1 hnil
  exact ⟨span, rfl⟩

/-- Lexemes with these words spell the expression at the level of a rank, but for the places of its
names. -/
def SpelledAt (rank : Nat) (words : List Word) (e : Expr) : Prop :=
  ∀ lexemes : List Lexeme, lexemes.map (·.word) = words →
    ∃ e', e'.unplaced = e.unplaced ∧ Derives (ofRank rank) lexemes [e']

/-- Lexemes with these words spell the arguments of a call, but for the places of their names. -/
def SpelledAsArguments (words : List Word) (es : List Expr) : Prop :=
  ∀ lexemes : List Lexeme, lexemes.map (·.word) = words →
    ∃ es', unplacedAll es' = unplacedAll es ∧ Derives .arguments lexemes es'

variable {e target left right operand position condition yes no : Expr} {rank : Nat}
  {words words' words'' : List Word}

theorem SpelledAt.of_le {least : Nat} (h : SpelledAt rank words e) (hl : least ≤ rank)
    (hr : rank ≤ 10) : SpelledAt least words e := by
  intro lexemes hwords
  obtain ⟨e', he, hd⟩ := h lexemes hwords
  exact ⟨e', he, hd.of_le hl hr⟩

/-- With parentheses around it an expression stands anywhere. -/
theorem SpelledAt.grouped {least : Nat} (h : SpelledAt e.rank words e) (hl : least ≤ 10) :
    SpelledAt least (e.grouped least words) e := by
  unfold Expr.grouped
  split
  · intro lexemes hwords
    obtain ⟨before, rest, rfl, hrest⟩ := exists_of_map_eq_cons hwords
    obtain ⟨own, close, rfl, hown, hclose⟩ := List.map_eq_append_iff.1 hrest
    obtain ⟨behind, rfl⟩ := exists_of_map_eq_singleton hclose
    obtain ⟨e', he, hd⟩ := h.of_le (Nat.zero_le _) e.rank_le own hown
    have hgroup : Derives (ofRank 10)
        (⟨.symbol .openParen, before⟩ :: (own ++ [⟨.symbol .closeParen, behind⟩])) [e'] := .group hd
    exact ⟨e', he, hgroup.of_le hl (Nat.le_refl 10)⟩
  · next hr => exact h.of_le (Nat.le_of_not_lt hr) e.rank_le

theorem named_eq {name : String} (h : name ∉ constants) (span : Span) :
    Parser.named name span = .ident name span := by
  unfold Parser.named
  split
  · exact absurd (by decide) h
  · exact absurd (by decide) h
  · exact absurd (by decide) h
  · rfl

/-! ### Each kind of expression -/

theorem spelledAt_literal {value : Value} (h : IsLiteral value) :
    SpelledAt 10 (literalWords value) (.literal value) := by
  intro lexemes hwords
  cases value with
  | null =>
    obtain ⟨span, rfl⟩ := exists_of_map_eq_singleton hwords
    exact ⟨_, rfl, .named "null" span⟩
  | bool b =>
    obtain ⟨span, rfl⟩ := exists_of_map_eq_singleton hwords
    cases b with
    | false => exact ⟨_, rfl, .named "false" span⟩
    | true => exact ⟨_, rfl, .named "true" span⟩
  | int i =>
    obtain ⟨span, rfl⟩ := exists_of_map_eq_singleton hwords
    exact ⟨_, rfl, .int i span⟩
  | str s =>
    obtain ⟨span, rfl⟩ := exists_of_map_eq_singleton hwords
    exact ⟨_, rfl, .str s span⟩
  | float => exact h.elim
  | list => exact h.elim

theorem spelledAt_ident {name : String} (h : name ∉ constants) (place : Span) :
    SpelledAt 10 [.ident name] (.ident name place) := by
  intro lexemes hwords
  obtain ⟨span, rfl⟩ := exists_of_map_eq_singleton hwords
  have hd := Derives.named name span
  rw [named_eq h] at hd
  exact ⟨.ident name span, rfl, hd⟩

theorem SpelledAt.member (name : String) (place : Span) (h : SpelledAt 9 words target) :
    SpelledAt 9 (words ++ [.symbol .dot, .ident name]) (.member target name place) := by
  intro lexemes hwords
  obtain ⟨own, suffix, rfl, hown, hsuffix⟩ := List.map_eq_append_iff.1 hwords
  obtain ⟨dot, last, rfl, hlast⟩ := exists_of_map_eq_cons hsuffix
  obtain ⟨span, rfl⟩ := exists_of_map_eq_singleton hlast
  obtain ⟨target', ht, hd⟩ := h own hown
  refine ⟨_, ?_, .member name hd⟩
  rw [unplaced, unplaced, ht]

theorem SpelledAt.call (method : String) (args : List Expr) (place : Span)
    (h : SpelledAt 9 words target)
    (ha : args ≠ [] → SpelledAsArguments (argumentWords args) args) :
    SpelledAt 9
      (words ++ .symbol .dot :: .ident method :: .symbol .openParen ::
        (argumentWords args ++ [.symbol .closeParen]))
      (.call target method args place) := by
  intro lexemes hwords
  obtain ⟨own, suffix, rfl, hown, hsuffix⟩ := List.map_eq_append_iff.1 hwords
  obtain ⟨dot, named, rfl, hnamed⟩ := exists_of_map_eq_cons hsuffix
  obtain ⟨span, applied, rfl, happlied⟩ := exists_of_map_eq_cons hnamed
  obtain ⟨before, inner, rfl, hinner⟩ := exists_of_map_eq_cons happlied
  obtain ⟨more, close, rfl, hmore, hclose⟩ := List.map_eq_append_iff.1 hinner
  obtain ⟨behind, rfl⟩ := exists_of_map_eq_singleton hclose
  obtain ⟨target', ht, hd⟩ := h own hown
  cases args with
  | nil =>
    cases List.map_eq_nil_iff.1 hmore
    refine ⟨_, ?_, .invoke method hd⟩
    rw [unplaced, unplaced, ht]
  | cons e es =>
    obtain ⟨es', hes, hargs⟩ := ha (List.cons_ne_nil e es) more hmore
    refine ⟨_, ?_, .call method hd hargs⟩
    rw [unplaced, unplaced, ht, hes]

theorem SpelledAt.index (place : Span) (h : SpelledAt 9 words target)
    (hp : SpelledAt 0 words' position) :
    SpelledAt 9 (words ++ .symbol .openBracket :: (words' ++ [.symbol .closeBracket]))
      (.index target position place) := by
  intro lexemes hwords
  obtain ⟨own, suffix, rfl, hown, hsuffix⟩ := List.map_eq_append_iff.1 hwords
  obtain ⟨before, inner, rfl, hinner⟩ := exists_of_map_eq_cons hsuffix
  obtain ⟨more, close, rfl, hmore, hclose⟩ := List.map_eq_append_iff.1 hinner
  obtain ⟨behind, rfl⟩ := exists_of_map_eq_singleton hclose
  obtain ⟨target', ht, hd⟩ := h own hown
  obtain ⟨position', hi, hdi⟩ := hp more hmore
  cases more with
  | nil => exact absurd rfl hdi.ne_nil
  | cons first more =>
    refine ⟨_, ?_, .index hd hdi⟩
    rw [unplaced, unplaced, ht, hi]

theorem SpelledAt.unary (op : UnaryOp) (h : SpelledAt 8 words operand) :
    SpelledAt 8 (.symbol op.symbol :: words) (.unary op operand) := by
  intro lexemes hwords
  obtain ⟨span, rest, rfl, hrest⟩ := exists_of_map_eq_cons hwords
  obtain ⟨operand', ho, hd⟩ := h rest hrest
  refine ⟨.unary op operand', ?_, .unary ?_ hd⟩
  · rw [unplaced, unplaced, ho]
  · cases op <;> rfl

theorem SpelledAt.binary (op : BinaryOp) (hl : SpelledAt op.sides.1 words left)
    (hr : SpelledAt op.sides.2 words' right) :
    SpelledAt op.rank (words ++ .symbol op.symbol :: words') (.binary op left right) := by
  intro lexemes hwords
  obtain ⟨own, rest, rfl, hown, hrest⟩ := List.map_eq_append_iff.1 hwords
  obtain ⟨span, more, rfl, hmore⟩ := exists_of_map_eq_cons hrest
  obtain ⟨left', hleft, hdl⟩ := hl own hown
  obtain ⟨right', hright, hdr⟩ := hr more hmore
  refine ⟨_, ?_, .ofBinary op hdl hdr⟩
  rw [unplaced, unplaced, hleft, hright]

theorem SpelledAt.conditional (hc : SpelledAt 1 words condition) (hy : SpelledAt 0 words' yes)
    (hn : SpelledAt 0 words'' no) :
    SpelledAt 0 (words ++ .symbol .question :: (words' ++ .symbol .colon :: words''))
      (.conditional condition yes no) := by
  intro lexemes hwords
  obtain ⟨own, choices, rfl, hown, hchoices⟩ := List.map_eq_append_iff.1 hwords
  obtain ⟨question, both, rfl, hboth⟩ := exists_of_map_eq_cons hchoices
  obtain ⟨more, last, rfl, hmore, hlast⟩ := List.map_eq_append_iff.1 hboth
  obtain ⟨colon, others, rfl, hothers⟩ := exists_of_map_eq_cons hlast
  obtain ⟨condition', hcondition, hdc⟩ := hc own hown
  obtain ⟨yes', hyes, hdy⟩ := hy more hmore
  obtain ⟨no', hno, hdn⟩ := hn others hothers
  refine ⟨_, ?_, .conditional hdc hdy hdn⟩
  rw [unplaced, unplaced, hcondition, hyes, hno]

theorem spelledAsArguments {es : List Expr} (he : ∀ e ∈ es, SpelledAt 0 e.words e) (hne : es ≠ []) :
    SpelledAsArguments (argumentWords es) es := by
  induction es with
  | nil => exact absurd rfl hne
  | cons e es ih =>
    obtain ⟨hfirst, hmore⟩ := List.forall_mem_cons.1 he
    cases es with
    | nil =>
      intro lexemes hwords
      obtain ⟨e', he', hd⟩ := hfirst lexemes hwords
      refine ⟨[e'], ?_, .lastArgument hd⟩
      simp only [unplacedAll, he']
    | cons next es =>
      intro lexemes hwords
      obtain ⟨own, rest, rfl, hown, hrest⟩ := List.map_eq_append_iff.1 hwords
      obtain ⟨comma, others, rfl, hothers⟩ := exists_of_map_eq_cons hrest
      obtain ⟨e', he', hd⟩ := hfirst own hown
      obtain ⟨es', hes', hds⟩ := ih hmore (List.cons_ne_nil next es) others hothers
      refine ⟨e' :: es', ?_, .argument hd hds⟩
      rw [unplacedAll, unplacedAll, he', hes']

/-- **What is printed of an expression spells it**, at the level of its rank. -/
theorem Writable.spelledAt (h : Writable e) : SpelledAt e.rank e.words e := by
  induction h with
  | literal h => exact spelledAt_literal h
  | ident span _ hc => exact spelledAt_ident hc span
  | member span _ _ ih => exact (ih.grouped (by decide)).member _ span
  | call span _ _ _ ih iha =>
    refine (ih.grouped (by decide)).call _ _ span (spelledAsArguments fun e he => ?_)
    exact (iha e he).of_le (Nat.zero_le _) e.rank_le
  | index span _ _ ih ihp =>
    exact (ih.grouped (by decide)).index span (ihp.of_le (Nat.zero_le _) (rank_le _))
  | unary op _ ih => exact (ih.grouped (by decide)).unary op
  | binary op _ _ ihl ihr =>
    exact (ihl.grouped op.sides_le.1).binary op (ihr.grouped op.sides_le.2)
  | conditional _ _ _ ihc ihy ihn =>
    exact (ihc.grouped (by decide)).conditional (ihy.of_le (Nat.zero_le _) (rank_le _))
      (ihn.of_le (Nat.zero_le _) (rank_le _))

/-! ### Reading back -/

theorem forall_mem_grouped {least : Nat} (h : ∀ word ∈ words, word.Printable) :
    ∀ word ∈ e.grouped least words, word.Printable := by
  unfold grouped
  split
  · exact List.forall_mem_cons.2
      ⟨trivial, List.forall_mem_append.2 ⟨h, List.forall_mem_singleton.2 trivial⟩⟩
  · exact h

theorem forall_mem_literalWords {value : Value} (h : IsLiteral value) :
    ∀ word ∈ literalWords value, word.Printable := by
  have hname : ∀ name ∈ constants, Lexeme.isIdentifier name = true :=
    List.all_eq_true.1 (by decide +kernel)
  cases value with
  | null => exact List.forall_mem_singleton.2 (hname _ (by decide))
  | bool b => exact List.forall_mem_singleton.2 (hname _ (by cases b <;> decide))
  | int => exact List.forall_mem_singleton.2 h
  | str => exact List.forall_mem_singleton.2 h
  | float => exact h.elim
  | list => exact h.elim

theorem forall_mem_argumentWords {es : List Expr}
    (h : ∀ e ∈ es, ∀ word ∈ e.words, word.Printable) :
    ∀ word ∈ argumentWords es, word.Printable := by
  induction es with
  | nil => exact fun _ hw => absurd hw List.not_mem_nil
  | cons e es ih =>
    obtain ⟨hfirst, hmore⟩ := List.forall_mem_cons.1 h
    cases es with
    | nil => exact hfirst
    | cons next es =>
      exact List.forall_mem_append.2 ⟨hfirst, List.forall_mem_cons.2 ⟨trivial, ih hmore⟩⟩

/-- Each word of what is printed is read as what it is. -/
theorem Writable.printable (h : Writable e) : ∀ word ∈ e.words, word.Printable := by
  induction h with
  | literal h => exact forall_mem_literalWords h
  | ident span hn => exact List.forall_mem_singleton.2 hn
  | member span _ hn ih =>
    rw [words, List.forall_mem_append, List.forall_mem_cons, List.forall_mem_singleton]
    exact ⟨forall_mem_grouped ih, trivial, hn⟩
  | call span _ hm _ ih iha =>
    rw [words, List.forall_mem_append, List.forall_mem_cons, List.forall_mem_cons,
      List.forall_mem_cons, List.forall_mem_append, List.forall_mem_singleton]
    exact ⟨forall_mem_grouped ih, trivial, hm, trivial, forall_mem_argumentWords iha, trivial⟩
  | index span _ _ ih ihp =>
    rw [words, List.forall_mem_append, List.forall_mem_cons, List.forall_mem_append,
      List.forall_mem_singleton]
    exact ⟨forall_mem_grouped ih, trivial, ihp, trivial⟩
  | unary op _ ih =>
    rw [words, List.forall_mem_cons]
    exact ⟨trivial, forall_mem_grouped ih⟩
  | binary op _ _ ihl ihr =>
    rw [words, List.forall_mem_append, List.forall_mem_cons]
    exact ⟨forall_mem_grouped ihl, trivial, forall_mem_grouped ihr⟩
  | conditional _ _ _ ihc ihy ihn =>
    rw [words, List.forall_mem_append, List.forall_mem_cons, List.forall_mem_append,
      List.forall_mem_cons]
    exact ⟨forall_mem_grouped ihc, trivial, ihy, trivial, ihn⟩

end Expr

def Lambda.words (lambda : Lambda) : List Word :=
  .ident lambda.param :: .symbol .arrow :: lambda.body.words

/-- **What is printed is read back**, with the same parameter and, but for the places of its names, the
same body. -/
theorem Lambda.parse_of_spaced {lambda : Lambda} {text : String}
    (hp : Lexeme.isIdentifier lambda.param = true) (hb : lambda.body.Writable)
    (ht : Word.Spaced lambda.words text.toList) :
    ∃ body, Lambda.parse text = .ok ⟨lambda.param, body⟩ ∧
      body.unplaced = lambda.body.unplaced := by
  have hprintable : ∀ word ∈ lambda.words, word.Printable :=
    List.forall_mem_cons.2 ⟨hp, List.forall_mem_cons.2 ⟨trivial, hb.printable⟩⟩
  obtain ⟨lexemes, hlexemes, hwords⟩ := ht.exists_lexemes hprintable 0
  obtain ⟨name, behind, rfl, hbehind⟩ := Expr.exists_of_map_eq_cons hwords
  obtain ⟨arrow, own, rfl, hown⟩ := Expr.exists_of_map_eq_cons hbehind
  obtain ⟨body, hbody, hd⟩ := hb.spelledAt.of_le (Nat.zero_le _) (Expr.rank_le _) own hown
  exact ⟨body, Lambda.parse_eq_ok_iff.2 ⟨_, hlexemes, name, arrow, own, hd, .inl rfl⟩, hbody⟩

/-- A pair of parentheses on the left of `??` and one around a difference that is multiplied, and no
others. -/
theorem Lambda.parse_of_spaced_parentheses :
    let x : Expr := .ident "x" ⟨0, 0⟩
    let body : Expr := .conditional
      (.binary .coalesce (.binary .coalesce (.member x "a" ⟨0, 0⟩) (.literal (.int 1)))
        (.literal (.str "\"")))
      (.binary .subtract (.member x "n" ⟨0, 0⟩)
        (.binary .multiply (.binary .subtract (.literal (.int 2)) (.literal (.int 3)))
          (.unary .negate (.index
            (.call x "f" [.literal (.bool true), .ident "y" ⟨0, 0⟩] ⟨0, 0⟩) (.literal (.int 4))
            ⟨0, 0⟩))))
      (.literal .null)
    ∃ body', Lambda.parse (" x => ( x . a ?? 1 ) ?? \"\\\"\" ? " ++
        "x . n - ( 2 - 3 ) * - x . f ( true , y ) [ 4 ] : null") = .ok ⟨"x", body'⟩ ∧
      body'.unplaced = body := by
  intro x body
  have hname : ∀ name ∈ ["x", "a", "n", "f", "y"], Lexeme.isIdentifier name = true :=
    List.all_eq_true.1 (by decide +kernel)
  have hx : x.Writable := .ident _ (hname _ (by decide)) (by decide)
  have hint : ∀ n ∈ [1, 2, 3, 4], Expr.Writable (.literal (.int n)) := by
    intro n hn
    have hall : [1, 2, 3, 4].all (fun n : Int64 => 0 ≤ n.toInt) = true := by decide
    have hle : 0 ≤ n.toInt := of_decide_eq_true (List.all_eq_true.1 hall n hn)
    exact .literal hle
  have hcall : Expr.Writable (.call x "f" [.literal (.bool true), .ident "y" ⟨0, 0⟩] ⟨0, 0⟩) :=
    .call _ hx (hname _ (by decide)) (List.forall_mem_cons.2 ⟨.literal trivial,
      List.forall_mem_singleton.2 (.ident _ (hname _ (by decide)) (by decide))⟩)
  have hbody : body.Writable :=
    .conditional
      (.binary _ (.binary _ (.member _ hx (hname _ (by decide))) (hint 1 (by decide)))
        (.literal trivial))
      (.binary _ (.member _ hx (hname _ (by decide)))
        (.binary _ (.binary _ (hint 2 (by decide)) (hint 3 (by decide)))
          (.unary _ (.index _ hcall (hint 4 (by decide))))))
      (.literal trivial)
  have hline : (" x => ( x . a ?? 1 ) ?? \"\\\"\" ? " ++
        "x . n - ( 2 - 3 ) * - x . f ( true , y ) [ 4 ] : null").toList =
      Word.line (Lambda.words ⟨"x", body⟩) := by
    decide +kernel
  have htext := Word.spaced_line (Lambda.words ⟨"x", body⟩)
  rw [← hline] at htext
  exact parse_of_spaced (hname "x" (by decide)) hbody htext

end Stencil
