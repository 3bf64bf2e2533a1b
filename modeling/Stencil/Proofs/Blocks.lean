import Stencil.Proofs.Pieces

/-! The blocks of a text.

A text is a tree: literal stretches, values and definitions, and blocks with more of these in them.
`Token.Grammar.blocks` builds the tree of a whole text out of its pieces, before anything is rendered.
What is wrong with the text, a malformed token or one that is not closed or out of place, is a leaf of
the tree, because all that stands in front of it is rendered before it is met. `Spells` says which
pieces a tree was built from. -/
namespace Stencil

/-- Whether a token ends the part of a block that began with another. -/
def Token.Kind.ends : (kind opening : Token.Kind) → Bool
  | elseMark, ifOpen => true
  | ifClose, ifOpen => true
  | ifClose, elseMark => true
  | whileClose, whileOpen => true
  | eachClose, eachOpen => true
  | _, _ => false

/-- The kind of block that a token closes or divides, if it is of that sort. -/
def Token.Kind.opener? : Token.Kind → Option Token.Kind
  | elseMark => some ifOpen
  | ifClose => some ifOpen
  | whileClose => some whileOpen
  | eachClose => some eachOpen
  | _ => none

/-- A token that closes or divides a block is known by its kind. -/
theorem Token.Directive.eq_of_kind {directive directive' : Token.Directive}
    (h : directive.kind = directive'.kind) (ho : directive'.kind.opener?.isSome = true) :
    directive = directive' := by
  cases directive' with
  | elseMark => cases directive <;> first | rfl | cases h
  | ifClose => cases directive <;> first | rfl | cases h
  | whileClose => cases directive <;> first | rfl | cases h
  | eachClose => cases directive <;> first | rfl | cases h
  | _ => cases ho

theorem Token.Directive.exists_of_kind_whileOpen {directive : Token.Directive}
    (h : directive.kind = .whileOpen) : ∃ condition, directive = .whileOpen condition := by
  cases directive with
  | whileOpen condition => exact ⟨condition, rfl⟩
  | _ => cases h

theorem Token.Directive.exists_of_kind_eachOpen {directive : Token.Directive}
    (h : directive.kind = .eachOpen) : ∃ name sequence, directive = .eachOpen name sequence := by
  cases directive with
  | eachOpen name sequence => exact ⟨name, sequence, rfl⟩
  | _ => cases h

/-- What a text says, or a part of it, up to its end. -/
inductive Blocks where
  /-- The part is closed. -/
  | closed
  /-- The text ends. -/
  | ending
  /-- A token that begins at an offset is not closed. -/
  | unclosed (offset : Nat)
  /-- A token is malformed or out of place. -/
  | faulty (fault : TokenFault)
  | text (literal : List Char) (rest : Blocks)
  | value (directive : Token.Directive) (rest : Blocks)
  | define (name : String) (meaning : Token.Meaning) (rest : Blocks)
  /-- An `if` without an `else`. -/
  | ifThen (condition : Token.Condition) (yes rest : Blocks)
  | ifElse (condition : Token.Condition) (yes no rest : Blocks)
  | whileLoop (condition : Token.Condition) (body rest : Blocks)
  | eachLoop (name : String) (sequence : String) (body rest : Blocks)
  deriving DecidableEq, Repr

/-- The part of a text that begins with some pieces. -/
structure Part (pieces : List Piece) where
  blocks : Blocks
  /-- The kind of the token that closes it, and the pieces behind that. -/
  stop : Option (Token.Kind × { rest : List Piece // rest.length < pieces.length }) := none

/-- A longer part, with something in front. -/
def Part.behind {pieces more : List Piece} (part : Part pieces) (front : Blocks → Blocks)
    (h : pieces.length < more.length) : Part more where
  blocks := front part.blocks
  stop := part.stop.map fun (kind, rest) => (kind, ⟨rest.1, Nat.lt_trans rest.2 h⟩)

/-- Where a part stops, without the proof that pieces were used up. -/
def Part.last {pieces : List Piece} (part : Part pieces) : Option (Token.Kind × List Piece) :=
  part.stop.map fun (kind, rest) => (kind, rest.1)

theorem Part.last_behind {pieces more : List Piece} (part : Part pieces) (front : Blocks → Blocks)
    (h : pieces.length < more.length) : (part.behind front h).last = part.last := by
  unfold behind last
  rw [Option.map_map]
  rfl

namespace Token.Grammar

/-- The part that begins with some pieces, in a block that began with a token of the kind `within`.
What stands behind a part that is not closed is never met. -/
def part (g : Grammar) (within : Option Kind) (pieces : List Piece) : Part pieces :=
  match pieces with
  | [] => { blocks := .ending }
  | .unclosed offset :: _ => { blocks := .unclosed offset }
  | .literal literal :: rest => (g.part within rest).behind (.text literal) (Nat.lt_succ_self _)
  | .token raw :: rest =>
    match g.read raw with
    | .error fault => { blocks := .faulty fault }
    | .ok (.define name meaning) =>
      (g.part within rest).behind (.define name meaning) (Nat.lt_succ_self _)
    | .ok (.ifOpen condition) =>
      match g.part (some .ifOpen) rest with
      | ⟨yes, none⟩ => { blocks := .ifThen condition yes .ending }
      | ⟨yes, some (.elseMark, more)⟩ =>
        match g.part (some .elseMark) more.1 with
        | ⟨no, none⟩ => { blocks := .ifElse condition yes no .ending }
        | ⟨no, some (_, last)⟩ =>
          (g.part within last.1).behind (.ifElse condition yes no)
            (Nat.lt_succ_of_lt (Nat.lt_trans last.2 more.2))
      | ⟨yes, some (_, last)⟩ =>
        (g.part within last.1).behind (.ifThen condition yes) (Nat.lt_succ_of_lt last.2)
    | .ok (.whileOpen condition) =>
      match g.part (some .whileOpen) rest with
      | ⟨body, none⟩ => { blocks := .whileLoop condition body .ending }
      | ⟨body, some (_, last)⟩ =>
        (g.part within last.1).behind (.whileLoop condition body) (Nat.lt_succ_of_lt last.2)
    | .ok (.eachOpen name sequence) =>
      match g.part (some .eachOpen) rest with
      | ⟨body, none⟩ => { blocks := .eachLoop name sequence body .ending }
      | ⟨body, some (_, last)⟩ =>
        (g.part within last.1).behind (.eachLoop name sequence body) (Nat.lt_succ_of_lt last.2)
    | .ok directive =>
      match directive.kind.opener? with
      | none => (g.part within rest).behind (.value directive) (Nat.lt_succ_self _)
      | some opener =>
        if within.any directive.kind.ends then
          { blocks := .closed, stop := some (directive.kind, ⟨rest, Nat.lt_succ_self _⟩) }
        else { blocks := .faulty (.unmatched directive.kind opener) }
termination_by pieces.length
decreasing_by
  all_goals first
    | exact Nat.lt_succ_self _
    | exact Nat.lt_succ_of_lt (Nat.lt_trans last.2 more.2)
    | exact Nat.lt_succ_of_lt more.2
    | exact Nat.lt_succ_of_lt last.2

/-- What a whole text says. -/
def blocks (g : Grammar) (escapes : Bool) (text : List Char) : Blocks :=
  (g.part none (g.pieces escapes text.length text)).blocks

/-- The part that begins with these pieces, in a block that began with a token of the kind `within`,
says that, and ends with a token of a kind with these pieces behind it. -/
inductive Spells (g : Grammar) :
    (within : Option Kind) → List Piece → Blocks → Option (Kind × List Piece) → Prop where
  | ending {within : Option Kind} : Spells g within [] .ending none
  | unclosed {within : Option Kind} {offset : Nat} {rest : List Piece} :
      Spells g within (.unclosed offset :: rest) (.unclosed offset) none
  | faulty {within : Option Kind} {raw : List Char} {rest : List Piece} {fault : TokenFault}
      (hr : g.read raw = .error fault) : Spells g within (.token raw :: rest) (.faulty fault) none
  | stray {within : Option Kind} {raw : List Char} {rest : List Piece} {directive : Directive}
      {opener : Kind} (hr : g.read raw = .ok directive)
      (ho : directive.kind.opener? = some opener) (hw : within.any directive.kind.ends = false) :
      Spells g within (.token raw :: rest) (.faulty (.unmatched directive.kind opener)) none
  | closed {within : Option Kind} {raw : List Char} {rest : List Piece} {directive : Directive}
      (hr : g.read raw = .ok directive) (hw : within.any directive.kind.ends = true) :
      Spells g within (.token raw :: rest) .closed (some (directive.kind, rest))
  | text {within : Option Kind} {literal : List Char} {pieces : List Piece} {rest : Blocks}
      {stop : Option (Kind × List Piece)} (h : Spells g within pieces rest stop) :
      Spells g within (.literal literal :: pieces) (.text literal rest) stop
  | value {within : Option Kind} {raw : List Char} {pieces : List Piece} {directive : Directive}
      {rest : Blocks} {stop : Option (Kind × List Piece)} (hr : g.read raw = .ok directive)
      (hw : directive.kind.isWritten = true) (h : Spells g within pieces rest stop) :
      Spells g within (.token raw :: pieces) (.value directive rest) stop
  | define {within : Option Kind} {raw : List Char} {pieces : List Piece} {name : String}
      {meaning : Meaning} {rest : Blocks} {stop : Option (Kind × List Piece)}
      (hr : g.read raw = .ok (.define name meaning)) (h : Spells g within pieces rest stop) :
      Spells g within (.token raw :: pieces) (.define name meaning rest) stop
  | ifUnclosed {within : Option Kind} {raw : List Char} {pieces : List Piece}
      {condition : Condition} {yes : Blocks} (hr : g.read raw = .ok (.ifOpen condition))
      (hy : Spells g (some .ifOpen) pieces yes none) :
      Spells g within (.token raw :: pieces) (.ifThen condition yes .ending) none
  | ifThen {within : Option Kind} {raw : List Char} {pieces more : List Piece}
      {condition : Condition} {yes rest : Blocks} {stop : Option (Kind × List Piece)}
      (hr : g.read raw = .ok (.ifOpen condition))
      (hy : Spells g (some .ifOpen) pieces yes (some (.ifClose, more)))
      (h : Spells g within more rest stop) :
      Spells g within (.token raw :: pieces) (.ifThen condition yes rest) stop
  | elseUnclosed {within : Option Kind} {raw : List Char} {pieces more : List Piece}
      {condition : Condition} {yes no : Blocks} (hr : g.read raw = .ok (.ifOpen condition))
      (hy : Spells g (some .ifOpen) pieces yes (some (.elseMark, more)))
      (hn : Spells g (some .elseMark) more no none) :
      Spells g within (.token raw :: pieces) (.ifElse condition yes no .ending) none
  | ifElse {within : Option Kind} {raw : List Char} {pieces more last : List Piece}
      {condition : Condition} {yes no rest : Blocks} {stop : Option (Kind × List Piece)}
      (hr : g.read raw = .ok (.ifOpen condition))
      (hy : Spells g (some .ifOpen) pieces yes (some (.elseMark, more)))
      (hn : Spells g (some .elseMark) more no (some (.ifClose, last)))
      (h : Spells g within last rest stop) :
      Spells g within (.token raw :: pieces) (.ifElse condition yes no rest) stop
  | whileUnclosed {within : Option Kind} {raw : List Char} {pieces : List Piece}
      {condition : Condition} {body : Blocks} (hr : g.read raw = .ok (.whileOpen condition))
      (hb : Spells g (some .whileOpen) pieces body none) :
      Spells g within (.token raw :: pieces) (.whileLoop condition body .ending) none
  | whileLoop {within : Option Kind} {raw : List Char} {pieces more : List Piece}
      {condition : Condition} {body rest : Blocks} {stop : Option (Kind × List Piece)}
      (hr : g.read raw = .ok (.whileOpen condition))
      (hb : Spells g (some .whileOpen) pieces body (some (.whileClose, more)))
      (h : Spells g within more rest stop) :
      Spells g within (.token raw :: pieces) (.whileLoop condition body rest) stop
  | eachUnclosed {within : Option Kind} {raw : List Char} {pieces : List Piece}
      {name sequence : String} {body : Blocks} (hr : g.read raw = .ok (.eachOpen name sequence))
      (hb : Spells g (some .eachOpen) pieces body none) :
      Spells g within (.token raw :: pieces) (.eachLoop name sequence body .ending) none
  | eachLoop {within : Option Kind} {raw : List Char} {pieces more : List Piece}
      {name sequence : String} {body rest : Blocks} {stop : Option (Kind × List Piece)}
      (hr : g.read raw = .ok (.eachOpen name sequence))
      (hb : Spells g (some .eachOpen) pieces body (some (.eachClose, more)))
      (h : Spells g within more rest stop) :
      Spells g within (.token raw :: pieces) (.eachLoop name sequence body rest) stop

/-- A part is closed by a token that ends it. -/
theorem Spells.ends {g : Grammar} {within : Option Kind} {pieces rest : List Piece}
    {blocks : Blocks} {kind : Kind} (h : g.Spells within pieces blocks (some (kind, rest))) :
    within.any kind.ends = true := by
  generalize hs : some (kind, rest) = stop at h
  induction h with
  | closed _ hw =>
    cases hs
    exact hw
  | text _ ih => exact ih hs
  | value _ _ _ ih => exact ih hs
  | define _ _ ih => exact ih hs
  | ifThen _ _ _ _ ih => exact ih hs
  | ifElse _ _ _ _ _ _ ih => exact ih hs
  | whileLoop _ _ _ _ ih => exact ih hs
  | eachLoop _ _ _ _ ih => exact ih hs
  | _ => cases hs

/-- Outside of blocks nothing is closed. -/
theorem Spells.stop_eq_none {g : Grammar} {pieces : List Piece} {blocks : Blocks}
    {stop : Option (Kind × List Piece)} (h : g.Spells none pieces blocks stop) : stop = none := by
  cases stop with
  | none => rfl
  | some stop => exact absurd h.ends Bool.false_ne_true

theorem spells_part (g : Grammar) (within : Option Kind) (pieces : List Piece) :
    g.Spells within pieces (g.part within pieces).blocks (g.part within pieces).last := by
  fun_induction part g within pieces with
  | case1 within => exact .ending
  | case2 within offset rest => exact .unclosed
  | case3 within literal rest ih =>
    rw [Part.last_behind]
    exact .text ih
  | case4 within raw rest fault hr => exact .faulty hr
  | case5 within raw rest name meaning hr ih =>
    rw [Part.last_behind]
    exact .define hr ih
  | case6 within raw rest condition hr yes hy ihy =>
    rw [hy] at ihy
    exact .ifUnclosed hr ihy
  | case7 within raw rest condition hr yes more hy no hn ihy ihn =>
    rw [hy] at ihy
    rw [hn] at ihn
    exact .elseUnclosed hr ihy ihn
  | case8 within raw rest condition hr yes more hy no kind last hn ihy ihn ih =>
    rw [hy] at ihy
    rw [hn] at ihn
    rw [Part.last_behind]
    obtain rfl : kind = .ifClose := by
      have := ihn.ends
      cases kind <;> first | rfl | cases this
    exact .ifElse hr ihy ihn ih
  | case9 within raw rest condition hr yes kind last hk hy ihy ih =>
    rw [hy] at ihy
    rw [Part.last_behind]
    obtain rfl : kind = .ifClose := by
      have := ihy.ends
      cases kind <;> first | rfl | exact absurd rfl hk | cases this
    exact .ifThen hr ihy ih
  | case10 within raw rest condition hr body hb ihb =>
    rw [hb] at ihb
    exact .whileUnclosed hr ihb
  | case11 within raw rest condition hr body kind last hb ihb ih =>
    rw [hb] at ihb
    rw [Part.last_behind]
    obtain rfl : kind = .whileClose := by
      have := ihb.ends
      cases kind <;> first | rfl | cases this
    exact .whileLoop hr ihb ih
  | case12 within raw rest name sequence hr body hb ihb =>
    rw [hb] at ihb
    exact .eachUnclosed hr ihb
  | case13 within raw rest name sequence hr body kind last hb ihb ih =>
    rw [hb] at ihb
    rw [Part.last_behind]
    obtain rfl : kind = .eachClose := by
      have := ihb.ends
      cases kind <;> first | rfl | cases this
    exact .eachLoop hr ihb ih
  | case14 within raw rest directive hd hi hw he hr ho ih =>
    rw [Part.last_behind]
    refine .value hr ?_ ih
    cases directive with
    | define name meaning => exact absurd rfl (hd name meaning)
    | ifOpen condition => exact absurd rfl (hi condition)
    | whileOpen condition => exact absurd rfl (hw condition)
    | eachOpen name sequence => exact absurd rfl (he name sequence)
    | empty => rfl
    | value name => rfl
    | expression text => rfl
    | _ => cases ho
  | case15 within raw rest directive hd hi hw he hr opener ho hc => exact .closed hr hc
  | case16 within raw rest directive hd hi hw he hr opener ho hc =>
    exact .stray hr ho (Bool.eq_false_iff.2 hc)

end Token.Grammar

end Stencil
