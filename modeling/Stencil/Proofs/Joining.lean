import Stencil.Proofs.Blocks

/-! Two texts, one behind the other.

Where nothing at the end of a text may be the beginning of a left delimiter (`Token.Grammar.pending`),
what is put behind the text is taken apart as if it stood alone, but for the literal text that meets
there (`Token.Grammar.pieces_append`). If besides all blocks of the front text are closed, the blocks of
the whole are those of its two parts, one behind the other (`Token.Grammar.blocks_append`). -/
namespace Stencil

/-! ### Literal text -/

namespace TextScan
variable {left text front : List Char}

/-- A scan that finds nothing holds everything. -/
theorem scan_plain_of_not_found (h : ((plain left).scan text).found = false) :
    ∃ matched, ((plain left).scan text).scan =
      { plain left with left := { Matcher.ofPattern left with matched }, held := text.reverse } := by
  have hmiss : ∀ (s : TextScan) (fed : List Char) (c : Char) (s' : TextScan),
      (∃ matched, s =
        { plain left with left := { Matcher.ofPattern left with matched }, held := fed.reverse } ∧
          s.left.Follows fed) →
      s.feed c = (false, s') → ∃ matched, s' =
        { plain left with
          left := { Matcher.ofPattern left with matched }, held := (fed ++ [c]).reverse } ∧
          s'.left.Follows (fed ++ [c]) := by
    rintro _ fed c s' ⟨matched, rfl, hfollows⟩ hf
    cases hl : ({ Matcher.ofPattern left with matched } : Matcher).feed c with
    | mk hit m =>
      cases hit with
      | true =>
        rw [feed_of_hit rfl hl] at hf
        cases hf
      | false =>
        rw [feed_of_miss hl] at hf
        cases hf
        obtain ⟨hm, matched', rfl⟩ := hfollows.of_miss hl
        exact ⟨matched', by rw [List.reverse_append]; rfl, hm⟩
  have hstart : ∃ matched, plain left =
      { plain left with left := { Matcher.ofPattern left with matched }, held := [].reverse } ∧
        (plain left).left.Follows [] := ⟨0, rfl, Matcher.follows_ofPattern left⟩
  obtain ⟨matched, hscan, _⟩ := (scanWith_invariant hmiss hstart text).1 h
  exact ⟨matched, hscan⟩

/-- Where a scan matches nothing at the end of a text, it goes on behind it as if it began there. -/
theorem scan_plain_append (hf : ((plain left).scan front).found = false)
    (hm : ((plain left).scan front).scan.left.matched = 0) (back : List Char) :
    (plain left).scan (front ++ back) =
      { (plain left).scan back with
        consumed := front.length + ((plain left).scan back).consumed
        scan := ((plain left).scan back).scan.above front.reverse } := by
  obtain ⟨matched, hscan⟩ := scan_plain_of_not_found hf
  rw [hscan] at hm
  obtain rfl : matched = 0 := hm
  have happend : (plain left).scan (front ++ back) =
      { ((plain left).scan front).scan.scan back with
        consumed := front.length + (((plain left).scan front).scan.scan back).consumed } :=
    scanWith_append hf back
  have habove : ((plain left).scan front).scan = (plain left).above front.reverse := hscan
  rw [happend, habove, ((flushable_plain left).scan front.reverse back).1]

end TextScan

namespace Text
variable {left front : List Char}

/-- The literal text of a template is what a scan holds. -/
theorem literalFront_eq_scan (left text : List Char) :
    let scanned := (TextScan.plain left).scan text
    literalFront left false [] text =
      (scanned.scan.held.reverse,
        if scanned.found then some (text.drop scanned.consumed) else none) := by
  intro scanned
  obtain ⟨hliteral, hrest⟩ :=
    TextScan.scan_eq (s := .plain left) (Matcher.follows_ofPattern left) text
  have hliteral : scanned.scan.held.reverse = (literalFront left false [] text).1 := hliteral
  refine Prod.ext hliteral.symm ?_
  show (literalFront left false [] text).2 = _
  cases hf : (literalFront left false [] text).2 with
  | none =>
    have hf : (literalFront (TextScan.plain left).left.pattern (TextScan.plain left).escapes
      (TextScan.plain left).held.reverse text).2 = none := hf
    rw [hf] at hrest
    have hrest : scanned.found = false := hrest
    rw [hrest]
    rfl
  | some rest =>
    have hf : (literalFront (TextScan.plain left).left.pattern (TextScan.plain left).escapes
      (TextScan.plain left).held.reverse text).2 = some rest := hf
    rw [hf] at hrest
    obtain ⟨hfound, hrest⟩ : scanned.found = true ∧ rest = text.drop scanned.consumed := hrest
    rw [hfound, if_pos rfl, hrest]

theorem literalFront_of_found {text : List Char}
    (h : ((TextScan.plain left).scan text).found = true) :
    literalFront left false [] text =
      (((TextScan.plain left).scan text).scan.held.reverse,
        some (text.drop ((TextScan.plain left).scan text).consumed)) := by
  rw [literalFront_eq_scan, if_pos h]

theorem literalFront_of_not_found {text : List Char}
    (h : ((TextScan.plain left).scan text).found = false) :
    literalFront left false [] text = (text, none) := by
  obtain ⟨matched, hscan⟩ := TextScan.scan_plain_of_not_found h
  rw [literalFront_eq_scan, h, if_neg Bool.false_ne_true, hscan]
  exact congrArg (·, none) text.reverse_reverse

/-- What stands behind the first delimiter does not matter to the literal text in front of it. -/
theorem literalFront_append_of_found (h : ((TextScan.plain left).scan front).found = true)
    (back : List Char) :
    literalFront left false [] (front ++ back) =
      (((TextScan.plain left).scan front).scan.held.reverse,
        some (front.drop ((TextScan.plain left).scan front).consumed ++ back)) := by
  have hscan : (TextScan.plain left).scan (front ++ back) = (TextScan.plain left).scan front :=
    scanWith_append_of_found h back
  have hle : ((TextScan.plain left).scan front).consumed ≤ front.length :=
    consumed_le_length _ front
  rw [literalFront_of_found (by rw [hscan]; exact h), hscan, List.drop_append_of_le_length hle]

/-- Where nothing is matched at the end of a literal text, more literal text goes together with it. -/
theorem literalFront_append_of_not_found (h : ((TextScan.plain left).scan front).found = false)
    (hm : ((TextScan.plain left).scan front).scan.left.matched = 0) (back : List Char) :
    literalFront left false [] (front ++ back) =
      (front ++ (literalFront left false [] back).1, (literalFront left false [] back).2) := by
  rw [literalFront_eq_scan, literalFront_eq_scan, TextScan.scan_plain_append h hm]
  dsimp only
  rw [← List.drop_drop, List.drop_left]
  congr 1
  exact (List.reverse_append ..).trans (congrArg (· ++ _) front.reverse_reverse)

end Text

/-! ### Pieces -/

namespace Piece

/-- Pieces with more literal text in front, which goes together with the literal text that they begin
with. -/
def prepend (front : List Char) : List Piece → List Piece
  | .literal more :: rest => .literal (front ++ more) :: rest
  | pieces => .literal front :: pieces

/-- Pieces with others behind them. Literal text that meets goes together. -/
def join : List Piece → List Piece → List Piece
  | [], back => back
  | [.literal text], back => prepend text back
  | piece :: rest, back => piece :: join rest back

/-- The piece of a text that begins so much further behind. -/
def moved (distance : Nat) : Piece → Piece
  | .unclosed offset => .unclosed (distance + offset)
  | piece => piece

/-- Whether a piece is all there. -/
def isClosed : Piece → Bool
  | .unclosed _ => false
  | _ => true

theorem join_literal_of_ne_nil {rest : List Piece} (hn : rest ≠ []) (text : List Char)
    (back : List Piece) : join (.literal text :: rest) back = .literal text :: join rest back := by
  cases rest with
  | nil => exact absurd rfl hn
  | cons piece rest => rfl

theorem join_ofLiteral_token (literal raw : List Char) (rest back : List Piece) :
    join (ofLiteral literal ++ .token raw :: rest) back =
      ofLiteral literal ++ .token raw :: join rest back := by
  unfold ofLiteral
  split
  · rfl
  · rfl

/-- Literal text in front of pieces that begin with none, or with more of it. -/
theorem join_ofLiteral (literal more : List Char) {rest : List Piece}
    (hr : ∀ text pieces, rest ≠ .literal text :: pieces) :
    join (ofLiteral literal) (ofLiteral more ++ rest) = ofLiteral (literal ++ more) ++ rest := by
  cases literal with
  | nil => rfl
  | cons c literal =>
    cases more with
    | nil =>
      rw [List.append_nil]
      cases rest with
      | nil => rfl
      | cons piece rest =>
        cases piece with
        | literal text => exact absurd rfl (hr text rest)
        | token raw => rfl
        | unclosed offset => rfl
    | cons d more => rfl

end Piece

namespace Token.Grammar
variable {g : Grammar}

/-- How many characters at the end of a text the search for a left delimiter has matched, which may so
be the beginning of one. -/
def pending (g : Grammar) (text : List Char) : Nat :=
  let scanned := (TextScan.plain g.left).scan text
  if _hf : scanned.found then
    let rest := text.drop scanned.consumed
    let closed := (CloseScan.start g.left g.right).scan rest
    if closed.found then g.pending (rest.drop closed.consumed) else 0
  else scanned.scan.left.matched
termination_by text.length
decreasing_by
  cases text with
  | nil => cases _hf
  | cons c text =>
    have := consumed_scanWith_pos TextScan.feed (.plain g.left) c text
    rw [List.length_drop, List.length_drop]
    show _ - (scanWith TextScan.feed 0 _ _).consumed - _ < text.length + 1
    rw [List.length_cons]
    omega

section
variable {escapes : Bool} {total : Nat} {text literal rest : List Char}

/-- Where there is no delimiter that counts, a text is literal. -/
theorem pieces_of_none (h : Text.literalFront g.left escapes [] text = (literal, none)) :
    g.pieces escapes total text = Piece.ofLiteral literal := by
  rw [pieces_front, h]
  dsimp only [Option.elim_none]
  rw [pieces_nil, List.append_nil]

/-- The first token of a text stands behind its literal text. -/
theorem pieces_of_some (h : Text.literalFront g.left escapes [] text = (literal, some rest)) :
    let closed := (CloseScan.start g.left g.right).scan rest
    g.pieces escapes total text = Piece.ofLiteral literal ++
      if closed.found then
        .token closed.scan.text :: g.pieces escapes total (rest.drop closed.consumed)
      else [.unclosed (total - rest.length - g.left.length)] := by
  intro closed
  obtain ⟨hn, _⟩ := Text.literalFront_eq_some (congrArg Prod.snd h)
  rw [pieces_front, h]
  exact congrArg (Piece.ofLiteral literal ++ ·) (pieces_left hn rest)

end

/-- **A text is taken apart as its two parts are**, if the front one has nothing pending at its end and
does not end in a token. -/
theorem pieces_append {total total' : Nat} {front : List Char} (hp : g.pending front = 0)
    (hc : ∀ piece ∈ g.pieces false total front, piece.isClosed = true) (back : List Char) :
    g.pieces false total' (front ++ back) =
      Piece.join (g.pieces false total front) (g.pieces false total' back) := by
  fun_induction pending g front with
  | case1 front scanned hfound rest closed hclosed ih =>
    have hscan : (CloseScan.start g.left g.right).scan (rest ++ back) = closed :=
      scanWith_append_of_found hclosed back
    have hle : closed.consumed ≤ rest.length := consumed_le_length _ rest
    have hfront : g.pieces false total front = _ :=
      pieces_of_some (Text.literalFront_of_found hfound)
    rw [if_pos hclosed] at hfront
    rw [pieces_of_some (Text.literalFront_append_of_found hfound back), hfront,
      Piece.join_ofLiteral_token]
    rw [hfront] at hc
    rw [hscan, if_pos hclosed, List.drop_append_of_le_length hle,
      ih hp fun piece hm => hc piece (List.mem_append_right _ (List.mem_cons_of_mem _ hm))]
  | case2 front scanned hfound rest closed hclosed =>
    rw [pieces_of_some (Text.literalFront_of_found hfound), if_neg hclosed] at hc
    cases hc _ (List.mem_append_right _ List.mem_cons_self)
  | case3 front scanned hfound =>
    have hfound := Bool.eq_false_iff.2 hfound
    have hwhole := Text.literalFront_append_of_not_found hfound hp back
    rw [pieces_of_none (Text.literalFront_of_not_found hfound)]
    cases hb : Text.literalFront g.left false [] back with
    | mk more behind =>
      rw [hb] at hwhole
      cases behind with
      | none =>
        have hjoin := Piece.join_ofLiteral front more
          (nofun : ∀ text pieces, ([] : List Piece) ≠ .literal text :: pieces)
        rw [List.append_nil, List.append_nil] at hjoin
        rw [pieces_of_none hwhole, pieces_of_none hb, hjoin]
      | some behind =>
        rw [pieces_of_some hwhole, pieces_of_some hb, Piece.join_ofLiteral]
        split
        · nofun
        · nofun

/-- In a longer text the same pieces lie further behind. -/
theorem pieces_add {escapes : Bool} {total : Nat} {text : List Char} (h : text.length ≤ total)
    (distance : Nat) :
    g.pieces escapes (distance + total) text =
      (g.pieces escapes total text).map (Piece.moved distance) := by
  have hliteral : ∀ literal, (Piece.ofLiteral literal).map (Piece.moved distance) =
      Piece.ofLiteral literal := by
    intro literal
    unfold Piece.ofLiteral
    split
    · rfl
    · rfl
  induction hn : text.length using Nat.strongRecOn generalizing text with
  | ind n ih =>
    subst hn
    cases hf : Text.literalFront g.left escapes [] text with
    | mk literal behind =>
      cases behind with
      | none => rw [pieces_of_none hf, pieces_of_none hf, hliteral]
      | some rest =>
        obtain ⟨hn, before, hbefore⟩ := Text.literalFront_eq_some (congrArg Prod.snd hf)
        have hpos := List.length_pos_iff.2 hn
        have hlen := congrArg List.length hbefore
        rw [List.length_append, List.length_append] at hlen
        rw [pieces_of_some hf, pieces_of_some hf, List.map_append, hliteral]
        split
        · have hdrop := List.length_drop (l := rest)
            (i := ((CloseScan.start g.left g.right).scan rest).consumed)
          rw [List.map_cons, ih _ (by omega) (by omega) rfl]
          rfl
        · have hoffset : distance + total - rest.length - g.left.length =
              distance + (total - rest.length - g.left.length) := by omega
          rw [hoffset]
          rfl

end Token.Grammar

/-! ### Blocks -/

namespace Blocks

/-- The blocks of a text that begins so much further behind. -/
def moved (distance : Nat) : Blocks → Blocks
  | closed => closed
  | ending => ending
  | unclosed offset => unclosed (distance + offset)
  | faulty fault => faulty fault
  | text literal rest => text literal (rest.moved distance)
  | value directive rest => value directive (rest.moved distance)
  | define name meaning rest => define name meaning (rest.moved distance)
  | ifThen condition yes rest => ifThen condition (yes.moved distance) (rest.moved distance)
  | ifElse condition yes no rest =>
    ifElse condition (yes.moved distance) (no.moved distance) (rest.moved distance)
  | whileLoop condition body rest => whileLoop condition (body.moved distance) (rest.moved distance)
  | eachLoop name sequence body rest =>
    eachLoop name sequence (body.moved distance) (rest.moved distance)

/-- Blocks with literal text in front, which goes together with the literal text that they begin
with. -/
def prepend (front : List Char) : Blocks → Blocks
  | text more rest => text (front ++ more) rest
  | blocks => text front blocks

/-- Blocks that go on with others where they end. -/
def join : Blocks → Blocks → Blocks
  | closed, back => back
  | ending, back => back
  | unclosed offset, _ => unclosed offset
  | faulty fault, _ => faulty fault
  | text literal ending, back => back.prepend literal
  | text literal rest, back => text literal (rest.join back)
  | value directive rest, back => value directive (rest.join back)
  | define name meaning rest, back => define name meaning (rest.join back)
  | ifThen condition yes rest, back => ifThen condition yes (rest.join back)
  | ifElse condition yes no rest, back => ifElse condition yes no (rest.join back)
  | whileLoop condition body rest, back => whileLoop condition body (rest.join back)
  | eachLoop name sequence body rest, back => eachLoop name sequence body (rest.join back)

/-- All blocks are closed and no token is malformed or out of place; `inner` is whether the blocks stand
in another one themselves. -/
def Complete : (blocks : Blocks) → (inner : Bool) → Prop
  | closed, _ => True
  | ending, inner => inner = false
  | unclosed _, _ => False
  | faulty _, _ => False
  | text _ rest, inner => rest.Complete inner
  | value _ rest, inner => rest.Complete inner
  | define _ _ rest, inner => rest.Complete inner
  | ifThen _ yes rest, inner => yes.Complete true ∧ rest.Complete inner
  | ifElse _ yes no rest, inner => yes.Complete true ∧ no.Complete true ∧ rest.Complete inner
  | whileLoop _ body rest, inner => body.Complete true ∧ rest.Complete inner
  | eachLoop _ _ body rest, inner => body.Complete true ∧ rest.Complete inner

theorem join_text_of_ne_ending {rest : Blocks} (hn : rest ≠ .ending) (literal : List Char)
    (back : Blocks) : join (.text literal rest) back = .text literal (rest.join back) := by
  cases rest with
  | ending => exact absurd rfl hn
  | _ => rfl

end Blocks

namespace Token.Grammar.Spells
variable {g : Grammar} {within : Option Kind} {pieces back : List Piece} {blocks behind : Blocks}
  {stop : Option (Kind × List Piece)}

/-- Where pieces are left there are blocks. -/
theorem ne_ending (h : g.Spells within pieces blocks stop) (hn : pieces ≠ []) :
    blocks ≠ .ending := by
  cases h with
  | ending => exact absurd rfl hn
  | _ => nofun

/-- At the end of the pieces there are none. -/
theorem eq_ending (h : g.Spells within [] blocks stop) : blocks = .ending ∧ stop = none := by
  cases h
  exact ⟨rfl, rfl⟩

/-- Further behind, blocks are spelled in the same way. -/
theorem moved (h : g.Spells within pieces blocks stop) (distance : Nat) :
    g.Spells within (pieces.map (Piece.moved distance)) (blocks.moved distance)
      (stop.map fun (kind, rest) => (kind, rest.map (Piece.moved distance))) := by
  induction h with
  | ending => exact .ending
  | unclosed => exact .unclosed
  | faulty hr => exact .faulty hr
  | stray hr ho hw => exact .stray hr ho hw
  | closed hr hw => exact .closed hr hw
  | text _ ih => exact .text ih
  | value hr hw _ ih => exact .value hr hw ih
  | define hr _ ih => exact .define hr ih
  | ifUnclosed hr _ ihy => exact .ifUnclosed hr ihy
  | ifThen hr _ _ ihy ih => exact .ifThen hr ihy ih
  | elseUnclosed hr _ _ ihy ihn => exact .elseUnclosed hr ihy ihn
  | ifElse hr _ _ _ ihy ihn ih => exact .ifElse hr ihy ihn ih
  | whileUnclosed hr _ ihb => exact .whileUnclosed hr ihb
  | whileLoop hr _ _ ihb ih => exact .whileLoop hr ihb ih
  | eachUnclosed hr _ ihb => exact .eachUnclosed hr ihb
  | eachLoop hr _ _ ihb ih => exact .eachLoop hr ihb ih

/-- A part that is not closed is not complete as a part of a block. -/
theorem not_complete (h : g.Spells within pieces blocks stop) (hs : stop = none) :
    ¬blocks.Complete true := by
  induction h with
  | ending => nofun
  | unclosed => exact not_false
  | faulty => exact not_false
  | stray => exact not_false
  | closed => cases hs
  | text _ ih => exact ih hs
  | value _ _ _ ih => exact ih hs
  | define _ _ ih => exact ih hs
  | ifUnclosed _ _ ihy => exact fun hc => ihy rfl hc.1
  | ifThen _ _ _ _ ih => exact fun hc => ih hs hc.2
  | elseUnclosed _ _ _ _ ihn => exact fun hc => ihn rfl hc.2.1
  | ifElse _ _ _ _ _ _ ih => exact fun hc => ih hs hc.2.2
  | whileUnclosed _ _ ihb => exact fun hc => ihb rfl hc.1
  | whileLoop _ _ _ _ ih => exact fun hc => ih hs hc.2
  | eachUnclosed _ _ ihb => exact fun hc => ihb rfl hc.1
  | eachLoop _ _ _ _ ih => exact fun hc => ih hs hc.2

/-- Complete blocks are spelled by pieces that are all there. -/
theorem isClosed_of_complete (h : g.Spells within pieces blocks stop) {inner : Bool}
    (hc : blocks.Complete inner)
    (hrest : ∀ kind rest, stop = some (kind, rest) → ∀ piece ∈ rest, piece.isClosed = true) :
    ∀ piece ∈ pieces, piece.isClosed = true := by
  have htoken : ∀ {raw : List Char} {rest : List Piece},
      (∀ piece ∈ rest, piece.isClosed = true) →
        ∀ piece ∈ Piece.token raw :: rest, piece.isClosed = true :=
    fun hall => List.forall_mem_cons.2 ⟨rfl, hall⟩
  have hstop : ∀ {kind : Kind} {rest : List Piece}, (∀ piece ∈ rest, piece.isClosed = true) →
      ∀ kind' rest', some (kind, rest) = some (kind', rest') →
        ∀ piece ∈ rest', piece.isClosed = true := by
    intro kind rest hall kind' rest' he
    cases he
    exact hall
  induction h generalizing inner with
  | ending => nofun
  | unclosed => exact hc.elim
  | faulty => exact hc.elim
  | stray => exact hc.elim
  | closed => exact htoken (hrest _ _ rfl)
  | text _ ih => exact List.forall_mem_cons.2 ⟨rfl, ih hc hrest⟩
  | value _ _ _ ih => exact htoken (ih hc hrest)
  | define _ _ ih => exact htoken (ih hc hrest)
  | ifUnclosed _ _ ihy => exact htoken (ihy hc.1 nofun)
  | ifThen _ _ _ ihy ih => exact htoken (ihy hc.1 (hstop (ih hc.2 hrest)))
  | elseUnclosed _ _ _ ihy ihn => exact htoken (ihy hc.1 (hstop (ihn hc.2.1 nofun)))
  | ifElse _ _ _ _ ihy ihn ih =>
    exact htoken (ihy hc.1 (hstop (ihn hc.2.1 (hstop (ih hc.2.2 hrest)))))
  | whileUnclosed _ _ ihb => exact htoken (ihb hc.1 nofun)
  | whileLoop _ _ _ ihb ih => exact htoken (ihb hc.1 (hstop (ih hc.2 hrest)))
  | eachUnclosed _ _ ihb => exact htoken (ihb hc.1 nofun)
  | eachLoop _ _ _ ihb ih => exact htoken (ihb hc.1 (hstop (ih hc.2 hrest)))

/-- A part that is closed is spelled in the same way whatever stands behind. -/
theorem append (h : g.Spells within pieces blocks stop) {kind : Kind} {rest : List Piece}
    (hs : stop = some (kind, rest)) (back : List Piece) :
    g.Spells within (Piece.join pieces back) blocks (some (kind, Piece.join rest back)) := by
  induction h generalizing kind rest with
  | closed hr hw =>
    cases hs
    exact .closed hr hw
  | @text _ _ pieces _ _ h ih =>
    have hn : pieces ≠ [] := by
      rintro rfl
      cases h.eq_ending.2.symm.trans hs
    rw [Piece.join_literal_of_ne_nil hn]
    exact .text (ih hs)
  | value hr hw _ ih => exact .value hr hw (ih hs)
  | define hr _ ih => exact .define hr (ih hs)
  | ifThen hr _ _ ihy ih => exact .ifThen hr (ihy rfl) (ih hs)
  | ifElse hr _ _ _ ihy ihn ih => exact .ifElse hr (ihy rfl) (ihn rfl) (ih hs)
  | whileLoop hr _ _ ihb ih => exact .whileLoop hr (ihb rfl) (ih hs)
  | eachLoop hr _ _ ihb ih => exact .eachLoop hr (ihb rfl) (ih hs)
  | _ => cases hs

/-- Literal text in front. -/
theorem prepend (h : g.Spells within pieces blocks stop) (front : List Char) :
    g.Spells within (Piece.prepend front pieces) (blocks.prepend front) stop := by
  cases h with
  | text h => exact .text h
  | ending => exact .text .ending
  | unclosed => exact .text .unclosed
  | faulty hr => exact .text (.faulty hr)
  | stray hr ho hw => exact .text (.stray hr ho hw)
  | closed hr hw => exact .text (.closed hr hw)
  | value hr hw h => exact .text (.value hr hw h)
  | define hr h => exact .text (.define hr h)
  | ifUnclosed hr hy => exact .text (.ifUnclosed hr hy)
  | ifThen hr hy h => exact .text (.ifThen hr hy h)
  | elseUnclosed hr hy hn => exact .text (.elseUnclosed hr hy hn)
  | ifElse hr hy hn h => exact .text (.ifElse hr hy hn h)
  | whileUnclosed hr hb => exact .text (.whileUnclosed hr hb)
  | whileLoop hr hb h => exact .text (.whileLoop hr hb h)
  | eachUnclosed hr hb => exact .text (.eachUnclosed hr hb)
  | eachLoop hr hb h => exact .text (.eachLoop hr hb h)

/-- Complete blocks go on with what stands behind their pieces. -/
theorem join (h : g.Spells within pieces blocks stop) (hs : stop = none)
    (hc : blocks.Complete false) (hb : g.Spells within back behind none) :
    g.Spells within (Piece.join pieces back) (blocks.join behind) none := by
  induction h with
  | ending => exact hb
  | unclosed => exact hc.elim
  | faulty => exact hc.elim
  | stray => exact hc.elim
  | closed => cases hs
  | @text _ literal pieces _ _ h ih =>
    by_cases hn : pieces = []
    · subst hn
      rw [h.eq_ending.1]
      exact hb.prepend literal
    · rw [Piece.join_literal_of_ne_nil hn, Blocks.join_text_of_ne_ending (h.ne_ending hn)]
      exact .text (ih hs hc hb)
  | value hr hw _ ih => exact .value hr hw (ih hs hc hb)
  | define hr _ ih => exact .define hr (ih hs hc hb)
  | ifUnclosed _ hy => exact absurd hc.1 (hy.not_complete rfl)
  | ifThen hr hy _ _ ih => exact .ifThen hr (hy.append rfl back) (ih hs hc.2 hb)
  | elseUnclosed _ _ hn => exact absurd hc.2.1 (hn.not_complete rfl)
  | ifElse hr hy hn _ _ _ ih =>
    exact .ifElse hr (hy.append rfl back) (hn.append rfl back) (ih hs hc.2.2 hb)
  | whileUnclosed _ hbody => exact absurd hc.1 (hbody.not_complete rfl)
  | whileLoop hr hbody _ _ ih => exact .whileLoop hr (hbody.append rfl back) (ih hs hc.2 hb)
  | eachUnclosed _ hbody => exact absurd hc.1 (hbody.not_complete rfl)
  | eachLoop hr hbody _ _ ih => exact .eachLoop hr (hbody.append rfl back) (ih hs hc.2 hb)

end Token.Grammar.Spells

/-- What ends a part closes or divides a block. -/
theorem Token.Kind.isSome_opener?_of_ends {kind opening : Token.Kind}
    (h : kind.ends opening = true) : kind.opener?.isSome = true := by
  cases kind <;> first | rfl | cases h

namespace Token.Grammar
variable {g : Grammar}

theorem part_eq_of_last {within : Option Kind} {pieces rest : List Piece} {blocks : Blocks}
    {kind : Kind} (h : (g.part within pieces).blocks = blocks ∧
      (g.part within pieces).last = some (kind, rest)) :
    ∃ hlt, g.part within pieces = ⟨blocks, some (kind, ⟨rest, hlt⟩)⟩ := by
  obtain ⟨rfl, hl⟩ := h
  generalize g.part within pieces = part at hl ⊢
  obtain ⟨blocks, stop⟩ := part
  obtain ⟨⟨kind', rest', hlt⟩, rfl, he⟩ := Option.map_eq_some_iff.1 hl
  cases he
  exact ⟨hlt, rfl⟩

theorem part_eq_of_none {within : Option Kind} {pieces : List Piece} {blocks : Blocks}
    (h : (g.part within pieces).blocks = blocks ∧ (g.part within pieces).last = none) :
    g.part within pieces = ⟨blocks, none⟩ := by
  obtain ⟨rfl, hl⟩ := h
  generalize g.part within pieces = part at hl ⊢
  obtain ⟨blocks, stop⟩ := part
  cases Option.map_eq_none_iff.1 hl
  rfl

/-- A token that opens no block and defines nothing. -/
theorem part_token {within : Option Kind} {raw : List Char} {directive : Directive}
    (hr : g.read raw = .ok directive)
    (hd : directive.kind.isWritten = true ∨ directive.kind.opener?.isSome = true)
    (rest : List Piece) :
    g.part within (.token raw :: rest) =
      match directive.kind.opener? with
      | none => (g.part within rest).behind (.value directive) (Nat.lt_succ_self _)
      | some opener =>
        if within.any directive.kind.ends then
          { blocks := .closed, stop := some (directive.kind, ⟨rest, Nat.lt_succ_self _⟩) }
        else { blocks := .faulty (.unmatched directive.kind opener) } := by
  rw [part]
  simp only [hr]
  cases directive with
  | define name meaning => rcases hd with hd | hd <;> cases hd
  | ifOpen condition => rcases hd with hd | hd <;> cases hd
  | whileOpen condition => rcases hd with hd | hd <;> cases hd
  | eachOpen name sequence => rcases hd with hd | hd <;> cases hd
  | _ => rfl

/-- What pieces spell is what is built out of them. -/
theorem Spells.part_eq {within : Option Kind} {pieces : List Piece} {blocks : Blocks}
    {stop : Option (Kind × List Piece)} (h : g.Spells within pieces blocks stop) :
    (g.part within pieces).blocks = blocks ∧ (g.part within pieces).last = stop := by
  induction h with
  | ending =>
    rw [part]
    exact ⟨rfl, rfl⟩
  | unclosed =>
    rw [part]
    exact ⟨rfl, rfl⟩
  | faulty hr =>
    rw [part]
    simp only [hr]
    exact ⟨trivial, rfl⟩
  | stray hr ho hw =>
    rw [part_token hr (.inr (Option.isSome_of_eq_some ho))]
    simp only [ho, hw]
    exact ⟨rfl, rfl⟩
  | @closed within _ _ directive hr hw =>
    obtain ⟨opening, rfl, he⟩ := (Option.any_eq_true ..).1 hw
    have ho := Kind.isSome_opener?_of_ends he
    obtain ⟨opener, ho'⟩ := Option.isSome_iff_exists.1 ho
    rw [part_token hr (.inr ho)]
    simp only [ho', hw]
    exact ⟨rfl, rfl⟩
  | text h ih =>
    rw [part, Part.last_behind]
    exact ⟨congrArg _ ih.1, ih.2⟩
  | @value _ _ _ directive _ _ hr hw h ih =>
    have ho : directive.kind.opener? = none := by
      cases directive <;> first | rfl | cases hw
    rw [part_token hr (.inl hw)]
    simp only [ho]
    rw [Part.last_behind]
    exact ⟨congrArg _ ih.1, ih.2⟩
  | define hr h ih =>
    rw [part]
    simp only [hr]
    rw [Part.last_behind]
    exact ⟨congrArg _ ih.1, ih.2⟩
  | ifUnclosed hr _ ihy =>
    rw [part]
    simp only [hr, part_eq_of_none ihy]
    exact ⟨trivial, rfl⟩
  | ifThen hr _ _ ihy ih =>
    obtain ⟨hlt, hy⟩ := part_eq_of_last ihy
    rw [part]
    simp only [hr, hy]
    rw [Part.last_behind]
    exact ⟨congrArg _ ih.1, ih.2⟩
  | elseUnclosed hr _ _ ihy ihn =>
    obtain ⟨hlt, hy⟩ := part_eq_of_last ihy
    rw [part]
    simp only [hr, hy, part_eq_of_none ihn]
    exact ⟨trivial, rfl⟩
  | ifElse hr _ _ _ ihy ihn ih =>
    obtain ⟨hlt, hy⟩ := part_eq_of_last ihy
    obtain ⟨hlt', hn⟩ := part_eq_of_last ihn
    rw [part]
    simp only [hr, hy, hn]
    rw [Part.last_behind]
    exact ⟨congrArg _ ih.1, ih.2⟩
  | whileUnclosed hr _ ihb =>
    rw [part]
    simp only [hr, part_eq_of_none ihb]
    exact ⟨trivial, rfl⟩
  | whileLoop hr _ _ ihb ih =>
    obtain ⟨hlt, hb⟩ := part_eq_of_last ihb
    rw [part]
    simp only [hr, hb]
    rw [Part.last_behind]
    exact ⟨congrArg _ ih.1, ih.2⟩
  | eachUnclosed hr _ ihb =>
    rw [part]
    simp only [hr, part_eq_of_none ihb]
    exact ⟨trivial, rfl⟩
  | eachLoop hr _ _ ihb ih =>
    obtain ⟨hlt, hb⟩ := part_eq_of_last ihb
    rw [part]
    simp only [hr, hb]
    rw [Part.last_behind]
    exact ⟨congrArg _ ih.1, ih.2⟩

/-- **The blocks of a text are those of its two parts, one behind the other**, if the front one is
complete and has nothing pending at its end. -/
theorem blocks_append {front : List Char} (hp : g.pending front = 0)
    (hc : (g.blocks false front).Complete false) (back : List Char) :
    g.blocks false (front ++ back) =
      (g.blocks false front).join ((g.blocks false back).moved front.length) := by
  have hfront := g.spells_part none (g.pieces false front.length front)
  have hback := (g.spells_part none (g.pieces false back.length back)).moved front.length
  rw [hback.stop_eq_none, ← pieces_add (Nat.le_refl _)] at hback
  have hclosed := hfront.isClosed_of_complete hc fun kind rest hs =>
    nomatch hfront.stop_eq_none.symm.trans hs
  have hjoin := hfront.join hfront.stop_eq_none hc hback
  rw [← pieces_append hp hclosed back, ← List.length_append] at hjoin
  exact hjoin.part_eq.1

end Token.Grammar

end Stencil
