import Stencil.Proofs.Sight

/-! The pieces of a text: literal stretches and tokens.

`Token.Grammar.pieces` takes a text apart as a whole: up to the leftmost left delimiter it is literal,
behind that stands a token up to the delimiter that closes it, and so on. A rendering that has all of
a text comes upon its pieces one after the other: `Text.literalFront` is what a text scan finds
(`TextScan.scan_eq`), and so what lies ahead of a rendering is the first of the pieces of the text that
is left (`pass_eq`). -/
namespace Stencil

/-! ### The leftmost occurrence -/

namespace Text
variable {piece text : List Char}

theorem find?_eq_some {n : Nat} (h : find? piece text = some n) :
    piece <+: text.drop n ∧ ∀ m, m < n → ¬piece <+: text.drop m := by
  induction text generalizing n with
  | nil =>
    unfold find? at h
    split at h
    · next he =>
      cases h
      rw [List.isEmpty_iff.1 he]
      exact ⟨List.nil_prefix, fun m hm => absurd hm (Nat.not_lt_zero m)⟩
    · cases h
  | cons c rest ih =>
    unfold find? at h
    split at h
    · next hp =>
      cases h
      exact ⟨List.isPrefixOf_iff_prefix.1 hp, fun m hm => absurd hm (Nat.not_lt_zero m)⟩
    · next hp =>
      obtain ⟨k, hk, rfl⟩ := Option.map_eq_some_iff.1 h
      obtain ⟨hfound, hleast⟩ := ih hk
      refine ⟨hfound, fun m hm => ?_⟩
      cases m with
      | zero => exact fun hc => hp (List.isPrefixOf_iff_prefix.2 hc)
      | succ m => exact hleast m (Nat.lt_of_succ_lt_succ hm)

theorem find?_eq_none (h : find? piece text = none) (m : Nat) : ¬piece <+: text.drop m := by
  induction text generalizing m with
  | nil =>
    unfold find? at h
    split at h
    · cases h
    · next he =>
      intro hp
      rw [List.drop_nil] at hp
      exact he (List.isEmpty_iff.2 (List.prefix_nil.1 hp))
  | cons c rest ih =>
    unfold find? at h
    split at h
    · cases h
    · next hp =>
      cases m with
      | zero => exact fun hc => hp (List.isPrefixOf_iff_prefix.2 hc)
      | succ m => exact ih (Option.map_eq_none_iff.1 h) m

/-- An occurrence fits into the text. -/
theorem find?_add_length_le (hn : piece ≠ []) {n : Nat} (h : find? piece text = some n) :
    n + piece.length ≤ text.length ∧ 0 < piece.length := by
  have hle := (find?_eq_some h).1.length_le
  have hpos := List.length_pos_iff.2 hn
  rw [List.length_drop] at hle
  omega

/-- Where a piece occurs the text up to behind it ends with it. -/
theorem isSuffix_take {n : Nat} (h : piece <+: text.drop n) :
    piece <:+ text.take (n + piece.length) := by
  rw [List.take_add, ← List.prefix_iff_eq_take.1 h]
  exact List.suffix_append _ _

/-- Where a text ends with a piece it occurs. -/
theorem isPrefix_drop {n : Nat} (hn : n ≤ text.length) (h : piece <:+ text.take n) :
    piece.length ≤ n ∧ piece <+: text.drop (n - piece.length) := by
  obtain ⟨front, hf⟩ := h
  have hlen : front.length + piece.length = n := by
    rw [← List.length_append, hf, List.length_take_of_le hn]
  have ht : text = front ++ (piece ++ text.drop n) := by
    rw [← List.append_assoc, hf, List.take_append_drop]
  have hfront : n - piece.length = front.length := by omega
  refine ⟨by omega, ?_⟩
  rw [hfront, ht, List.drop_left]
  exact List.prefix_append _ _

/-- What is left behind a piece begins where so many characters are left. -/
theorem drop_length_sub {cursor : Nat} {rest : List Char} (h : text.drop cursor = piece ++ rest) :
    text.drop (text.length - rest.length) = rest := by
  have hlen := congrArg List.length h
  rw [List.length_drop, List.length_append] at hlen
  by_cases hc : cursor ≤ text.length
  · have hplace : text.length - rest.length = cursor + piece.length := by omega
    rw [hplace, ← List.drop_drop, h, List.drop_left]
  · have hnil : rest = [] := List.length_eq_zero_iff.1 (by omega)
    rw [hnil]
    exact List.drop_length

/-- The literal text up to the next left delimiter, and what stands behind the delimiter if there is
one; `before` is the literal text in front. A backslash in front of a delimiter, where it counts,
makes the delimiter literal and is left out itself. -/
def literalFront (left : List Char) (escapes : Bool) (before text : List Char) :
    List Char × Option (List Char) :=
  if _hn : left = [] then (before ++ text, none)
  else
    match _h : find? left text with
    | none => (before ++ text, none)
    | some n =>
      let literal := before ++ text.take n
      let rest := text.drop (n + left.length)
      if escapes && literal.getLast? = some Quoting.escape then
        literalFront left escapes (literal.dropLast ++ left) rest
      else (literal, some rest)
termination_by text.length
decreasing_by
  have := find?_add_length_le _hn _h
  rw [List.length_drop]
  omega

/-- What stands behind the delimiter is what is left of the text. -/
theorem literalFront_eq_some {left before text rest : List Char} {escapes : Bool}
    (h : (literalFront left escapes before text).2 = some rest) :
    left ≠ [] ∧ ∃ front, text = front ++ (left ++ rest) := by
  fun_induction literalFront left escapes before text with
  | case1 => cases h
  | case2 => cases h
  | case3 before text hn n hfind literal behind hesc ih =>
    obtain ⟨_, front, hfront⟩ := ih h
    refine ⟨hn, text.take (n + left.length) ++ front, ?_⟩
    rw [List.append_assoc, ← hfront, List.take_append_drop]
  | case4 before text hn n hfind literal behind hesc =>
    obtain rfl : behind = rest := by injection h
    refine ⟨hn, text.take n, ?_⟩
    have htake : text.take (n + left.length) = text.take n ++ left := by
      rw [List.take_add, ← List.prefix_iff_eq_take.1 (find?_eq_some hfind).1]
    rw [← List.append_assoc, ← htake, List.take_append_drop]

/-- Behind the last delimiter nothing is left to be taken apart. -/
theorem literalFront_nil (left before : List Char) (escapes : Bool) :
    literalFront left escapes before [] = (before, none) := by
  unfold literalFront
  split
  · rw [List.append_nil]
  · next hn =>
    have hfind : find? left [] = none := by
      unfold find?
      rw [if_neg]
      exact fun he => hn (List.isEmpty_iff.1 he)
    split
    · rw [List.append_nil]
    · next he =>
      rw [hfind] at he
      cases he

/-- What a text begins with is found there. -/
theorem find?_self_append {piece : List Char} (hn : piece ≠ []) (rest : List Char) :
    find? piece (piece ++ rest) = some 0 := by
  cases piece with
  | nil => exact absurd rfl hn
  | cons c piece =>
    rw [List.cons_append, find?, if_pos]
    exact List.isPrefixOf_iff_prefix.2 (List.prefix_append _ _)

/-- In front of a delimiter there is no literal text. -/
theorem literalFront_left {left : List Char} (hn : left ≠ []) (escapes : Bool) (rest : List Char) :
    literalFront left escapes [] (left ++ rest) = ([], some rest) := by
  have hfind := find?_self_append hn rest
  unfold literalFront
  rw [dif_neg hn]
  split
  · next he =>
    rw [hfind] at he
    cases he
  · next n he =>
    rw [hfind] at he
    cases he
    simp only [List.take_zero, List.append_nil, List.getLast?_nil, reduceCtorEq, decide_false,
      Bool.and_false, Bool.false_eq_true, if_false, Nat.zero_add, List.drop_left]

end Text

/-! ### What a text scan finds -/

namespace TextScan

/-- Characters that complete no delimiter are held. -/
theorem scan_of_miss {s : TextScan} {fed : List Char} (h : s.left.Follows fed) {text : List Char}
    (hno : s.left.pattern ≠ [] → ∀ n, n < text.length →
      ¬s.left.pattern <:+ fed ++ text.take (n + 1)) :
    ∃ matched, ({ s.left with matched } : Matcher).Follows (fed ++ text) ∧
      s.scan text =
        ⟨text.length, false,
          { s with left := { s.left with matched }, held := text.reverse ++ s.held }⟩ := by
  induction text generalizing s fed with
  | nil => exact ⟨s.left.matched, by rw [List.append_nil]; exact h, rfl⟩
  | cons c rest ih =>
    cases hl : s.left.feed c with
    | mk hit left =>
      cases hit with
      | true =>
        have hne : s.left.pattern ≠ [] := by
          intro he
          rw [Matcher.feed_of_empty he] at hl
          cases hl
        exact absurd (h.of_hit hl).1 (hno hne 0 (Nat.zero_lt_succ _))
      | false =>
        obtain ⟨hfollows, matched, rfl⟩ := h.of_miss hl
        obtain ⟨matched', hf, hscan⟩ := ih (s := { s with
          left := { s.left with matched }, held := c :: s.held }) hfollows (by
          intro hne n hn
          rw [List.append_assoc]
          exact hno hne (n + 1) (Nat.succ_lt_succ hn))
        rw [List.append_assoc] at hf
        refine ⟨matched', hf, ?_⟩
        show scanWith feed 0 s (c :: rest) = _
        have hrest : scanWith feed 0 { s with left := { s.left with matched }, held := c :: s.held }
            rest = _ := hscan
        rw [scanWith_miss (feed_of_miss hl), hrest, List.length_cons, Nat.add_comm,
          List.reverse_cons, List.append_assoc]
        rfl

/-- A character that completes the delimiter behind literal text ends the scan, unless a backslash
that counts stands in front. -/
theorem feed_of_complete {s : TextScan} {c : Char} {left : Matcher}
    (h : s.left.feed c = (true, left)) {literal : List Char}
    (hheld : c :: s.held = left.pattern.reverse ++ literal.reverse) :
    s.feed c =
      if s.escapes && literal.getLast? = some Quoting.escape then
        (false, { s with left, held := (literal.dropLast ++ left.pattern).reverse })
      else (true, { s with left, held := literal.reverse }) := by
  have hlen : left.pattern.length = left.pattern.reverse.length := List.length_reverse.symm
  unfold TextScan.feed
  rw [h]
  dsimp only
  rw [hheld, hlen, List.drop_left, List.take_left]
  rcases List.eq_nil_or_concat literal with rfl | ⟨before, last, rfl⟩
  · simp only [List.reverse_nil, List.getLast?_nil, reduceCtorEq, decide_false, Bool.and_false,
      Bool.false_eq_true, if_false]
  · simp only [List.concat_eq_append, List.reverse_append, List.reverse_singleton,
      List.singleton_append, List.getLast?_concat, Option.some.injEq, List.dropLast_concat]

/-- Up to behind the leftmost delimiter a scan holds the literal text; there it ends or goes on. -/
theorem scan_of_find? {s : TextScan} (h : s.left.Follows []) {text : List Char} {n : Nat}
    (hn : s.left.pattern ≠ []) (hf : Text.find? s.left.pattern text = some n) :
    let literal := s.held.reverse ++ text.take n
    let size := n + s.left.pattern.length
    s.scan text =
      if s.escapes && literal.getLast? = some Quoting.escape then
        let scanned := ({ s with
          left := s.left.reset
          held := (literal.dropLast ++ s.left.pattern).reverse } : TextScan).scan (text.drop size)
        { scanned with consumed := size + scanned.consumed }
      else ⟨size, true, { s with left := s.left.reset, held := literal.reverse }⟩ := by
  intro literal size
  obtain ⟨hle, hpos⟩ := Text.find?_add_length_le hn hf
  obtain ⟨hocc, hleast⟩ := Text.find?_eq_some hf
  -- The characters in front of the last one of the delimiter, and that one.
  have hsize : size - 1 < text.length := by omega
  obtain ⟨c, hc⟩ : ∃ c, text.take size = text.take (size - 1) ++ [c] :=
    ⟨text[size - 1], by rw [← List.take_succ_eq_append_getElem hsize]; congr 1; omega⟩
  have hmiss : s.left.pattern ≠ [] → ∀ m, m < (text.take (size - 1)).length →
      ¬s.left.pattern <:+ [] ++ (text.take (size - 1)).take (m + 1) := by
    intro _ m hm hs
    rw [List.length_take] at hm
    rw [List.nil_append, List.take_take, Nat.min_eq_left (by omega)] at hs
    obtain ⟨hfits, hp⟩ := Text.isPrefix_drop (by omega) hs
    exact hleast _ (by omega) hp
  obtain ⟨matched, hfollows, hscan⟩ := scan_of_miss h hmiss
  have htake : text.take size = text.take n ++ s.left.pattern := by
    rw [List.take_add, ← List.prefix_iff_eq_take.1 hocc]
  have hhit : ({ s.left with matched } : Matcher).feed c = (true, s.left.reset) := by
    rcases hfollows.feed hn c with ⟨_, hfeed⟩ | ⟨hs, _⟩
    · exact hfeed
    · exact absurd (by rw [List.nil_append, ← hc]; exact Text.isSuffix_take hocc) hs
  have hheld : c :: ((text.take (size - 1)).reverse ++ s.held) =
      s.left.reset.pattern.reverse ++ literal.reverse := by
    rw [← List.singleton_append, ← List.append_assoc, ← List.reverse_singleton,
      ← List.reverse_append, ← hc, htake, List.reverse_append, List.reverse_append,
      List.reverse_reverse, List.append_assoc]
    rfl
  have hfeed := feed_of_complete
    (s := { s with left := { s.left with matched }, held := (text.take (size - 1)).reverse ++ s.held })
    hhit hheld
  have htext : text = text.take (size - 1) ++ c :: text.drop size := by
    rw [List.append_cons, ← hc, List.take_append_drop]
  have hlen : (text.take (size - 1)).length = size - 1 := List.length_take_of_le (by omega)
  have hscan : scanWith TextScan.feed 0 s (text.take (size - 1)) = _ := hscan
  have happend := scanWith_append
    (show (scanWith TextScan.feed 0 s (text.take (size - 1))).found = false by rw [hscan])
    (c :: text.drop size)
  rw [← htext, hscan] at happend
  show scanWith TextScan.feed 0 s text = _
  rw [happend, hlen]
  dsimp only
  split
  · next hesc =>
    rw [if_pos hesc] at hfeed
    rw [scanWith_miss hfeed, ← Nat.add_assoc, Nat.sub_add_cancel (by omega)]
    rfl
  · next hesc =>
    rw [if_neg hesc] at hfeed
    rw [scanWith_hit hfeed, Nat.sub_add_cancel (by omega)]

/-- A scan finds the end of the literal text in front of the leftmost delimiter that counts. -/
theorem scan_eq {s : TextScan} (h : s.left.Follows []) (text : List Char) :
    (s.scan text).scan.held.reverse =
        (Text.literalFront s.left.pattern s.escapes s.held.reverse text).1 ∧
      match (Text.literalFront s.left.pattern s.escapes s.held.reverse text).2 with
      | none => (s.scan text).found = false
      | some rest => (s.scan text).found = true ∧ rest = text.drop (s.scan text).consumed := by
  generalize hl : s.left.pattern = left
  generalize he : s.escapes = escapes
  generalize hb : s.held.reverse = before
  fun_induction Text.literalFront left escapes before text generalizing s with
  | case1 before text hn =>
    have hno : s.left.pattern ≠ [] → ∀ n, n < text.length →
        ¬s.left.pattern <:+ [] ++ text.take (n + 1) := fun hne => absurd (hl.trans hn) hne
    obtain ⟨matched, _, hscan⟩ := scan_of_miss h hno
    rw [hscan]
    exact ⟨by rw [List.reverse_append, List.reverse_reverse, hb], rfl⟩
  | case2 before text hn hfind =>
    have hno : s.left.pattern ≠ [] → ∀ n, n < text.length →
        ¬s.left.pattern <:+ [] ++ text.take (n + 1) := by
      intro _ n hlt hs
      rw [hl, List.nil_append] at hs
      exact Text.find?_eq_none hfind _ (Text.isPrefix_drop hlt hs).2
    obtain ⟨matched, _, hscan⟩ := scan_of_miss h hno
    rw [hscan]
    exact ⟨by rw [List.reverse_append, List.reverse_reverse, hb], rfl⟩
  | case3 before text hn n hfind literal rest =>
    rename_i hesc ih
    subst hl he hb
    have hscan := scan_of_find? h hn hfind
    dsimp only at hscan
    rw [if_pos hesc] at hscan
    rw [hscan]
    obtain ⟨hliteral, hrest⟩ := ih (s := { s with
      left := s.left.reset, held := (literal.dropLast ++ s.left.pattern).reverse })
      h.reset rfl rfl (List.reverse_reverse _)
    refine ⟨hliteral, ?_⟩
    split
    · next hnone =>
      rw [hnone] at hrest
      exact hrest
    · next rest' hsome =>
      rw [hsome] at hrest
      refine ⟨hrest.1, ?_⟩
      rw [hrest.2]
      exact List.drop_drop
  | case4 before text hn n hfind literal rest =>
    rename_i hesc
    subst hl he hb
    have hscan := scan_of_find? h hn hfind
    dsimp only at hscan
    rw [if_neg hesc] at hscan
    rw [hscan]
    exact ⟨List.reverse_reverse _, rfl, rfl⟩

end TextScan

/-! ### Taking a text apart -/

inductive Piece where
  | literal (text : List Char)
  /-- A token, with the text between its delimiters. -/
  | token (raw : List Char)
  /-- A token that begins at an offset and is not closed. -/
  | unclosed (offset : Nat)
  deriving DecidableEq, Repr

/-- Literal text as a piece, if there is any. -/
def Piece.ofLiteral (text : List Char) : List Piece :=
  if text.isEmpty then [] else [.literal text]

namespace Token.Grammar

/-- The pieces of what is left of a text with `total` characters. -/
def pieces (g : Grammar) (escapes : Bool) (total : Nat) (text : List Char) : List Piece :=
  let front := Text.literalFront g.left escapes [] text
  Piece.ofLiteral front.1 ++
    match _h : front.2 with
    | none => []
    | some rest =>
      let scanned := (CloseScan.start g.left g.right).scan rest
      if scanned.found then
        .token scanned.scan.text :: g.pieces escapes total (rest.drop scanned.consumed)
      else [.unclosed (total - rest.length - g.left.length)]
termination_by text.length
decreasing_by
  obtain ⟨hn, front, hf⟩ := Text.literalFront_eq_some _h
  have := List.length_pos_iff.2 hn
  rw [hf, List.length_append, List.length_append, List.length_drop]
  omega

variable {g : Grammar} {escapes : Bool} {total : Nat}

theorem pieces_nil : g.pieces escapes total [] = [] := by
  rw [pieces]
  dsimp only
  split
  · rw [Text.literalFront_nil]
    rfl
  · next h =>
    rw [Text.literalFront_nil] at h
    cases h

/-- A left delimiter begins a token. -/
theorem pieces_left (hn : g.left ≠ []) (rest : List Char) :
    let scanned := (CloseScan.start g.left g.right).scan rest
    g.pieces escapes total (g.left ++ rest) =
      if scanned.found then
        .token scanned.scan.text :: g.pieces escapes total (rest.drop scanned.consumed)
      else [.unclosed (total - rest.length - g.left.length)] := by
  intro scanned
  rw [pieces]
  dsimp only
  split
  · next h =>
    rw [Text.literalFront_left hn] at h
    cases h
  · next h =>
    rw [Text.literalFront_left hn] at h
    cases h
    rw [Text.literalFront_left hn]
    rfl

/-- Literal text is taken off the front of what is left. -/
theorem pieces_front (text : List Char) :
    let front := Text.literalFront g.left escapes [] text
    g.pieces escapes total text = Piece.ofLiteral front.1 ++
      g.pieces escapes total (front.2.elim [] (g.left ++ ·)) := by
  intro front
  rw [pieces]
  dsimp only
  congr 1
  split
  · next h =>
    rw [show front.2 = none from h]
    exact pieces_nil.symm
  · next rest h =>
    rw [show front.2 = some rest from h]
    exact (pieces_left (Text.literalFront_eq_some h).1 rest).symm

end Token.Grammar

/-! ### What lies ahead of a rendering -/

/-- Where the whole text is there, a fresh scan passes the literal text at its front. -/
theorem TextScan.pass_eq {scan : TextScan} (hs : scan.left.Follows []) (hh : scan.held = [])
    {text : List Char} {cursor : Nat} (hc : cursor ≤ text.length) :
    let front := Text.literalFront scan.left.pattern scan.escapes [] (text.drop cursor)
    scan.pass text none cursor =
      match front.2 with
      | none => ⟨.ok false, text.length, front.1⟩
      | some rest => ⟨.ok true, text.length - rest.length, front.1⟩ := by
  intro front
  obtain ⟨hliteral, hrest⟩ := scan_eq hs (text.drop cursor)
  rw [hh, List.reverse_nil] at hliteral hrest
  have hfront : ((scan.scan (text.drop cursor)).scan.take 0).1 = front.1 := by
    rw [← hliteral]
    rfl
  unfold pass
  dsimp only
  rw [hfront]
  cases hf : front.2 with
  | none =>
    rw [show (Text.literalFront _ _ _ _).2 = none from hf] at hrest
    rw [show (scan.scan (text.drop cursor)).found = false from hrest]
    rfl
  | some rest =>
    rw [show (Text.literalFront _ _ _ _).2 = some rest from hf] at hrest
    obtain ⟨hfound, hrest⟩ := hrest
    have hle : (scan.scan (text.drop cursor)).consumed ≤ (text.drop cursor).length :=
      consumed_le_length scan (text.drop cursor)
    rw [List.length_drop] at hle
    rw [hfound, if_pos rfl]
    dsimp only
    rw [hrest, List.length_drop, List.length_drop]
    congr 1
    omega

namespace Host
variable {κ : Type} {host : Host κ} {level : Nat} {within : Option Nat} {text : List Char}
  {cursor : Nat}

theorem pass_textScan (host : Host κ) (level : Nat) (hc : cursor ≤ text.length) :
    let front := Text.literalFront host.left (0 < level) [] (text.drop cursor)
    (Rendering.textScan host level).pass text none cursor =
      match front.2 with
      | none => ⟨.ok false, text.length, front.1⟩
      | some rest => ⟨.ok true, text.length - rest.length, front.1⟩ := by
  have hfresh : (Matcher.ofPattern host.left).Follows [] := Matcher.follows_ofPattern _
  by_cases hl : level = 0
  · subst hl
    have hpass := TextScan.pass_eq (show (TextScan.plain host.left).left.Follows [] from hfresh) rfl hc
    exact hpass
  · have hpass :=
      TextScan.pass_eq (show (TextScan.escaping host.left).left.Follows [] from hfresh) rfl hc
    rw [Rendering.textScan, if_neg hl, decide_eq_true (Nat.pos_of_ne_zero hl)]
    exact hpass

/-- At the end of a text. -/
theorem look_nil (hc : cursor ≤ text.length) (h : text.drop cursor = []) :
    host.look level within text none cursor = ⟨.ok none, text.length, []⟩ := by
  unfold look
  dsimp only
  rw [pass_textScan host level hc, h, Text.literalFront_nil]

/-- In front of a left delimiter. -/
theorem look_left (hc : cursor ≤ text.length) (hn : host.left ≠ []) {rest : List Char}
    (h : text.drop cursor = host.left ++ rest) :
    let scanned := (CloseScan.start host.left host.right).scan rest
    host.look level within text none cursor =
      if scanned.found then
        ⟨.ok (some scanned.scan.text), text.length - rest.length + scanned.consumed, []⟩
      else
        ⟨.error (.unterminatedToken (text.length - rest.length - host.left.length) within),
          text.length, []⟩ := by
  intro scanned
  have hread : (CloseScan.start host.left host.right).pass text none (text.length - rest.length) =
      if scanned.found then
        ⟨.ok (some scanned.scan.text), text.length - rest.length + scanned.consumed, []⟩
      else ⟨.ok none, text.length, []⟩ := by
    unfold CloseScan.pass
    rw [Text.drop_length_sub h]
  unfold look
  dsimp only
  rw [pass_textScan host level hc, h, Text.literalFront_left hn]
  dsimp only
  rw [hread]
  by_cases hfound : scanned.found = true
  · rw [if_pos hfound, if_pos hfound]
  · rw [if_neg hfound, if_neg hfound]

/-- Literal text is passed over. -/
theorem look_front (hc : cursor ≤ text.length) (vars : Variables) :
    ∃ place literal, place ≤ text.length ∧
      host.look level within text none cursor =
        { host.look level within text none place with literal } ∧
      (host.look level within text none place).literal = [] ∧
      (host.grammar vars).pieces (0 < level) text.length (text.drop cursor) =
        Piece.ofLiteral literal ++
          (host.grammar vars).pieces (0 < level) text.length (text.drop place) ∧
      (text.drop place = [] ∨ host.left ≠ [] ∧ ∃ rest, text.drop place = host.left ++ rest) := by
  have hpieces : (host.grammar vars).pieces (0 < level) text.length (text.drop cursor) = _ :=
    Token.Grammar.pieces_front _
  have hpass := pass_textScan host level hc
  generalize hf : Text.literalFront host.left (0 < level) [] (text.drop cursor) = front at hpass
  have hpieces : (host.grammar vars).pieces (0 < level) text.length (text.drop cursor) =
      Piece.ofLiteral front.1 ++
        (host.grammar vars).pieces (0 < level) text.length (front.2.elim [] (host.left ++ ·)) := by
    rw [← hf]
    exact hpieces
  obtain ⟨literal, behind⟩ := front
  cases behind with
  | none =>
    have hd : text.drop text.length = [] := List.drop_length
    refine ⟨text.length, literal, Nat.le_refl _, ?_, ?_, ?_, .inl hd⟩
    · rw [look_nil (Nat.le_refl _) hd]
      unfold look
      dsimp only
      rw [hpass]
    · rw [look_nil (Nat.le_refl _) hd]
    · rw [hpieces, hd]
      rfl
  | some rest =>
    obtain ⟨hn, before, hbefore⟩ := Text.literalFront_eq_some (congrArg (·.2) hf)
    have hlen := congrArg List.length hbefore
    rw [List.length_append, List.length_append, List.length_drop] at hlen
    have hplace : text.drop (cursor + before.length) = host.left ++ rest := by
      rw [← List.drop_drop, hbefore, List.drop_left]
    have hpos := List.length_pos_iff.2 hn
    have hle : cursor + before.length ≤ text.length := by omega
    have hpass' := pass_textScan host level hle
    rw [hplace, Text.literalFront_left hn] at hpass'
    refine ⟨cursor + before.length, literal, hle, ?_, ?_, ?_, .inr ⟨hn, rest, hplace⟩⟩
    · unfold look
      rw [hpass, hpass']
      dsimp only
      generalize (CloseScan.start host.left host.right).pass text none _ = read
      obtain ⟨_ | _ | _, _, _⟩ := read
      · rfl
      · rfl
      · rfl
    · rw [look_left hle hn hplace]
      split
      · rfl
      · rfl
    · rw [hpieces, hplace]
      rfl

/-- What lies ahead is the first of the pieces of what is left. -/
theorem look_of_pieces (host : Host κ) (level : Nat) (within : Option Nat)
    (hc : cursor ≤ text.length) (vars : Variables) :
    match (host.grammar vars).pieces (0 < level) text.length (text.drop cursor) with
    | [] => host.look level within text none cursor = ⟨.ok none, text.length, []⟩
    | .literal literal :: pieces => ∃ place, place ≤ text.length ∧
        host.look level within text none cursor =
          { host.look level within text none place with literal } ∧
        (host.look level within text none place).literal = [] ∧
        (host.grammar vars).pieces (0 < level) text.length (text.drop place) = pieces
    | .token raw :: pieces => ∃ place, place ≤ text.length ∧
        host.look level within text none cursor = ⟨.ok (some raw), place, []⟩ ∧
        (host.grammar vars).pieces (0 < level) text.length (text.drop place) = pieces
    | .unclosed offset :: _ =>
        host.look level within text none cursor =
          ⟨.error (.unterminatedToken offset within), text.length, []⟩ := by
  obtain ⟨place, literal, hle, hlook, hnone, hpieces, hplace⟩ := look_front hc vars
  unfold Piece.ofLiteral at hpieces
  split at hpieces
  · next he =>
    -- There is no literal text in front: a token begins here, or the text ends.
    rw [List.isEmpty_iff.1 he] at hlook
    have hlook : host.look level within text none cursor = host.look level within text none place := by
      rw [hlook, ← hnone]
    rw [hpieces, List.nil_append, hlook]
    rcases hplace with hd | ⟨hn, rest, hd⟩
    · rw [hd, Token.Grammar.pieces_nil, look_nil hle hd]
    · have hpieces : (host.grammar vars).pieces (0 < level) text.length (host.left ++ rest) =
          if ((CloseScan.start host.left host.right).scan rest).found then _ else _ :=
        Token.Grammar.pieces_left hn rest
      rw [hd, hpieces, look_left hle hn hd]
      by_cases hfound : ((CloseScan.start host.left host.right).scan rest).found = true
      · rw [if_pos hfound, if_pos hfound]
        have hused : ((CloseScan.start host.left host.right).scan rest).consumed ≤ rest.length :=
          consumed_le_length _ rest
        have hlen := congrArg List.length hd
        rw [List.length_drop, List.length_append] at hlen
        refine ⟨_, by omega, rfl, ?_⟩
        rw [← List.drop_drop, Text.drop_length_sub hd]
        rfl
      · rw [if_neg hfound, if_neg hfound]
        rfl
  · rw [hpieces]
    exact ⟨place, hle, hlook, hnone, rfl⟩

end Host

namespace Rendering
variable {κ σ : Type} {text : List Char}

/-- The rendering behind what lies ahead of it. -/
def past (r : Rendering κ σ) (sight : Passed (Option (List Char))) : Rendering κ σ :=
  { r.withWindow { r.passage.window with cursor := sight.cursor } with
    sink := r.sink.put r.state.frames.suppressed sight.literal }

/-- What a rendering comes upon if that lies ahead of it. -/
def upon (r : Rendering κ σ) (sight : Passed (Option (List Char))) : Encounter κ σ :=
  match sight.result with
  | .ok (some raw) => .token raw (r.past sight)
  | .ok none => .ending (r.past sight)
  | .error e => .failure e (r.past sight)

/-- Literal text may as well be written first. -/
theorem upon_past {r : Rendering κ σ} (hroom : r.sink.room = none)
    {first sight : Passed (Option (List Char))} (h : sight.literal = []) :
    (r.past first).upon sight = r.upon { sight with literal := first.literal } := by
  have hpast : (r.past first).past sight = r.past { sight with literal := first.literal } := by
    have hput := Sink.put_nil (Sink.room_put hroom r.state.frames.suppressed first.literal)
      r.state.frames.suppressed
    have hpast : (r.past first).past sight =
        { r.withWindow { r.passage.window with cursor := sight.cursor } with
          sink := (r.sink.put r.state.frames.suppressed first.literal).put
            r.state.frames.suppressed sight.literal } := rfl
    rw [hpast, h, hput]
    rfl
  unfold upon
  rw [hpast]

/-- A rendering that has all of a text comes upon what lies ahead of it, and nothing else happens. -/
theorem meet_of_whole [CharSource σ] [SteadySource σ] (host : Host κ) {r : Rendering κ σ}
    (h : r.passage.window.Whole text) (hroom : r.sink.room = none) :
    r.meet host =
      r.upon (host.look r.passage.level r.passage.within text none r.passage.window.cursor) := by
  have hsees := sees_meet host (Window.cuts_whole host.left r.passage.level text) h h.tells hroom
  generalize host.look r.passage.level r.passage.within text none r.passage.window.cursor = sight
    at hsees ⊢
  have hfixed : r.passage.window.isFixed = true := by
    rw [Window.isFixed, h.supply]
  have hpast : ∀ {r' : Rendering κ σ}, r.GoesOnTo text r' →
      r'.passage.window.cursor = sight.cursor →
      r'.sink = r.sink.put r.state.frames.suppressed sight.literal → r' = r.past sight := by
    intro r' hgo hc hk
    have hw := hgo.window.of_isFixed hfixed
    rw [hc] at hw
    obtain ⟨passage, outer, state, pool, sink⟩ := r'
    obtain rfl : passage = _ := hgo.passage.trans (by rw [hw])
    obtain rfl : outer = _ := hgo.outer
    obtain rfl : state = _ := hgo.state
    obtain rfl : pool = _ := hgo.pool hfixed
    obtain rfl : sink = _ := hk
    rfl
  unfold upon
  generalize r.meet host = met at hsees
  cases hsees with
  | token hs hr _ hc hk _ =>
    rw [hs]
    exact congrArg (Encounter.token _) (hpast hr hc hk)
  | ending hs hr _ hc hk _ =>
    rw [hs]
    exact congrArg Encounter.ending (hpast hr hc hk)
  | failure hs hr hk hc =>
    rw [hs]
    exact congrArg (Encounter.failure _) (hpast hr (hc rfl) hk)

end Rendering

end Stencil
