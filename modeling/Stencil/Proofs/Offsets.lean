import Stencil.Proofs.Pieces

/-! Text scans that cut their literal text at byte offsets.

A text scan takes characters off what it holds. Where a text is kept as its bytes that means to cut it at
an offset, which has to lie in the text and on the edge of a character. `ByteScan` does so, and has no
result where an offset is none of that kind. A scan that recalls what it was fed always has one, and it is
the one of the scan over characters (`TextScan.Recalls.feed?_bytes`, `TextScan.pass?_bytes`): what is cut
off is the delimiter that was just completed, or what is matched of one. -/
namespace Stencil

namespace Text

theorem utf8Length_append (front back : List Char) :
    utf8Length (front ++ back) = utf8Length front + utf8Length back := by
  induction front with
  | nil => exact (Nat.zero_add _).symm
  | cons c front ih =>
    rw [List.cons_append, utf8Length, utf8Length, ih, Nat.add_assoc]

/-- A text cut at a byte offset; none, if the offset lies behind the text or inside a character. -/
def cutAt? : Nat → List Char → Option (List Char × List Char)
  | 0, text => some ([], text)
  | _ + 1, [] => none
  | offset + 1, c :: rest =>
    if c.utf8Size ≤ offset + 1 then
      (cutAt? (offset + 1 - c.utf8Size) rest).map fun (front, back) => (c :: front, back)
    else none

/-- A text cut in front of so many bytes at its end; none, if it has less or they begin inside a
character. -/
def cutOff? (bytes : Nat) (text : List Char) : Option (List Char × List Char) :=
  if bytes ≤ utf8Length text then cutAt? (utf8Length text - bytes) text else none

/-- Characters end at the edge of a character. -/
theorem cutAt?_append (front back : List Char) :
    cutAt? (utf8Length front) (front ++ back) = some (front, back) := by
  induction front with
  | nil =>
    rw [utf8Length, cutAt?]
    rfl
  | cons c front ih =>
    obtain ⟨offset, hoffset⟩ : ∃ offset, utf8Length (c :: front) = offset + 1 :=
      Nat.exists_eq_succ_of_ne_zero (by have := c.utf8Size_pos; rw [utf8Length]; omega)
    rw [hoffset, List.cons_append, cutAt?, ← hoffset, utf8Length, if_pos (Nat.le_add_right _ _),
      Nat.add_sub_cancel_left, ih]
    rfl

theorem cutOff?_append (front back : List Char) :
    cutOff? (utf8Length back) (front ++ back) = some (front, back) := by
  rw [cutOff?, utf8Length_append, if_pos (Nat.le_add_left _ _), Nat.add_sub_cancel, cutAt?_append]

end Text

/-- A search for a left delimiter that cuts its literal text at byte offsets. -/
structure ByteScan where
  /-- The delimiter and how much of it is matched. -/
  left : Matcher
  /-- Whether a backslash in front of the delimiter makes it literal. -/
  escapes : Bool
  /-- The literal text that was met and not taken yet. -/
  literal : List Char

namespace ByteScan

def feed? (s : ByteScan) (c : Char) : Option (Bool × ByteScan) :=
  match s.left.feed c with
  | (false, left) => some (false, { s with left, literal := s.literal ++ [c] })
  | (true, left) =>
    (Text.cutOff? (Text.utf8Length left.pattern) (s.literal ++ [c])).map fun (before, delimiter) =>
      if s.escapes && before.getLast? = some Quoting.escape then
        (false, { s with left, literal := before.dropLast ++ delimiter })
      else (true, { s with left, literal := before })

/-- Scan a stretch of text of which so many characters were used. -/
def scanFrom? (consumed : Nat) (s : ByteScan) : List Char → Option (Scanned ByteScan)
  | [] => some ⟨consumed, false, s⟩
  | c :: rest =>
    match s.feed? c with
    | none => none
    | some (true, s) => some ⟨consumed + 1, true, s⟩
    | some (false, s) => scanFrom? (consumed + 1) s rest

/-- Take the literal text, but for so many bytes at its end. -/
def take? (s : ByteScan) (keep : Nat) : Option (List Char × ByteScan) :=
  (Text.cutOff? keep s.literal).map fun (taken, kept) => (taken, { s with literal := kept })

/-- Look for the next left delimiter in a text that is given in spans, from a place in it. Behind each
span the literal text is taken, but for the bytes that may yet become a delimiter. -/
def pass? (cursor : Nat) (s : ByteScan) : (spans : List (List Char)) → Option (Passed Bool)
  | [] => (s.take? 0).map fun (literal, _) => ⟨.ok false, cursor, literal⟩
  | span :: spans =>
    match scanFrom? 0 s span with
    | none => none
    | some ⟨consumed, true, s⟩ =>
      (s.take? 0).map fun (literal, _) => ⟨.ok true, cursor + consumed, literal⟩
    | some ⟨consumed, false, s⟩ =>
      match s.take? (Text.utf8Length s.left.pending) with
      | none => none
      | some (literal, s) =>
        (pass? (cursor + consumed) s spans).map fun passed =>
          { passed with literal := literal ++ passed.literal }

end ByteScan

namespace TextScan
variable {left fed : List Char} {s : TextScan} {c : Char}

/-- The same scan over bytes. -/
def bytes (s : TextScan) : ByteScan where
  left := s.left
  escapes := s.escapes
  literal := s.held.reverse

theorem bytes_of_reverse (left : Matcher) (escapes : Bool) (literal : List Char) :
    (⟨left, escapes, literal.reverse⟩ : TextScan).bytes = ⟨left, escapes, literal⟩ :=
  congrArg (ByteScan.mk left escapes) (List.reverse_reverse literal)

namespace Recalls

/-- As far as a delimiter is matched, what is held is what was fed. -/
theorem take_matched (h : s.Recalls left fed) :
    s.held.take s.left.matched = fed.reverse.take s.left.matched := by
  have hlen : (s.held.take s.left.matched).length = s.left.matched :=
    List.length_take_of_le h.matched_le
  have hprefix : s.held.take s.left.matched <+: fed.reverse :=
    (List.take_prefix_take_left (Nat.le_succ _)).trans h.recent
  rw [List.prefix_iff_eq_take.1 hprefix, hlen]

/-- What may yet become a delimiter is what is held last. -/
theorem take_eq_pending (h : s.Recalls left fed) :
    s.held.take s.left.matched = s.left.pending.reverse := by
  obtain ⟨-, front, back, rfl, hback⟩ := h.follows
  have hlen : s.left.pending.length = s.left.matched := List.length_take_of_le hback.longest.le_length
  have hsuffix : s.left.pending <:+ front ++ back :=
    List.suffix_append_of_suffix hback.longest.isSuffix
  have htake := List.prefix_iff_eq_take.1 (List.reverse_prefix.2 hsuffix)
  rw [List.length_reverse, hlen] at htake
  rw [h.take_matched, ← htake]

/-- Where a character completes a delimiter, it and what is held last are the delimiter. -/
theorem complete (h : s.Recalls left fed) {matcher : Matcher} (hm : s.left.feed c = (true, matcher)) :
    c :: s.held = s.left.pattern.reverse ++ s.held.drop s.left.matched := by
  have hmatched := h.take_matched
  obtain ⟨-, front, back, rfl, hback⟩ := h.follows
  have hne : s.left.pattern ≠ [] := by
    intro hempty
    rw [Matcher.feed_of_empty hempty] at hm
    cases hm
  have hlen : s.left.pattern.length = s.left.matched + 1 :=
    Nat.le_antisymm (Matcher.length_of_hit hm).1 (hback.lt_length hne)
  have hsuffix : s.left.pattern <:+ front ++ back ++ [c] := by
    rw [List.append_assoc]
    exact List.suffix_append_of_suffix (hback.of_hit hm).1
  have htake := List.prefix_iff_eq_take.1 (List.reverse_prefix.2 hsuffix)
  rw [List.length_reverse, hlen, List.reverse_append, List.reverse_singleton, List.singleton_append,
    List.take_succ_cons, ← hmatched] at htake
  rw [htake, List.cons_append, List.take_append_drop]

/-! ### The same scan -/

theorem feed?_bytes (h : s.Recalls left fed) (c : Char) :
    s.bytes.feed? c = some ((s.feed c).1, (s.feed c).2.bytes) := by
  have hliteral : s.bytes.literal ++ [c] = (c :: s.held).reverse := List.reverse_cons.symm
  unfold ByteScan.feed?
  cases hm : s.left.feed c with
  | mk hit matcher =>
    have hmb : s.bytes.left.feed c = (hit, matcher) := hm
    rw [hmb, hliteral]
    cases hit with
    | false =>
      rw [feed_of_miss hm]
      rfl
    | true =>
      obtain rfl : matcher = s.left.reset := (Matcher.length_of_hit hm).2
      have hheld := h.complete hm
      have hcut := Text.cutOff?_append (s.held.drop s.left.matched).reverse s.left.pattern
      have hsplit : (c :: s.held).reverse =
          (s.held.drop s.left.matched).reverse ++ s.left.pattern := by
        rw [hheld, List.reverse_append, List.reverse_reverse]
      have hfeed := feed_of_complete hm
        (hheld.trans (congrArg (s.left.pattern.reverse ++ ·) (List.reverse_reverse _).symm))
      show (Text.cutOff? (Text.utf8Length s.left.pattern) _).map _ = _
      rw [hsplit, hcut, hfeed]
      show some (if s.escapes && _ then _ else _) = _
      split
      · exact congrArg (fun scan => some (false, scan)) (bytes_of_reverse ..).symm
      · exact congrArg (fun scan => some (true, scan)) (bytes_of_reverse ..).symm

/-- A scan over bytes gets through every stretch, with the same result. -/
theorem scanFrom?_bytes (h : s.Recalls left fed) (consumed : Nat) (stretch : List Char) :
    ByteScan.scanFrom? consumed s.bytes stretch =
      some ⟨(scanWith feed consumed s stretch).consumed, (scanWith feed consumed s stretch).found,
        (scanWith feed consumed s stretch).scan.bytes⟩ := by
  induction stretch generalizing s fed consumed with
  | nil => rfl
  | cons c rest ih =>
    rw [ByteScan.scanFrom?, h.feed?_bytes, scanWith]
    cases hf : s.feed c with
    | mk hit next =>
      cases hit with
      | true => rfl
      | false => exact ih (h.miss hf) (consumed + 1)

/-- What may yet become a delimiter is left whole. -/
theorem take?_bytes (h : s.Recalls left fed) :
    s.bytes.take? (Text.utf8Length s.left.pending) =
      some ((s.take s.left.matched).1, (s.take s.left.matched).2.bytes) := by
  have hsplit : s.bytes.literal = (s.held.drop s.left.matched).reverse ++ s.left.pending := by
    have hpending : s.left.pending = (s.held.take s.left.matched).reverse := by
      rw [h.take_eq_pending, List.reverse_reverse]
    rw [hpending, ← List.reverse_append, List.take_append_drop]
    rfl
  rw [ByteScan.take?, hsplit, Text.cutOff?_append]
  show some (_, { s.bytes with literal := s.left.pending }) = _
  rw [TextScan.take, h.take_eq_pending, bytes_of_reverse]
  rfl

end Recalls

/-- All of the literal text can be taken. -/
theorem take?_zero_bytes (s : TextScan) : s.bytes.take? 0 = some ((s.take 0).1, (s.take 0).2.bytes) := by
  have hcut := Text.cutOff?_append s.bytes.literal []
  rw [List.append_nil] at hcut
  rw [ByteScan.take?, show (0 : Nat) = Text.utf8Length [] from rfl, hcut]
  rfl

/-- **Every byte offset is one at which the text can be cut**: a scan that minds no backslashes gets
through a text in any spans, and comes to what is next in the text as a whole. -/
theorem pass?_bytes (h : s.Recalls left fed) (hp : s.escapes = false) (spans : List (List Char)) :
    s.bytes.pass? fed.length spans =
      some (s.pass (fed ++ spans.flatten) none fed.length) := by
  induction spans generalizing s fed with
  | nil =>
    rw [List.flatten_nil, List.append_nil, pass_of_end, ByteScan.pass?, take?_zero_bytes]
    rfl
  | cons span spans ih =>
    have hprefix : span <+: (fed ++ (span :: spans).flatten).drop fed.length := by
      rw [List.drop_left]
      exact List.prefix_append _ _
    have hscan := h.scanFrom?_bytes 0 span
    rw [ByteScan.pass?]
    cases hfound : (s.scan span).found with
    | true =>
      have hfound' : (scanWith feed 0 s span).found = true := hfound
      rw [hfound'] at hscan
      rw [hscan, pass_of_found hprefix hfound]
      dsimp only
      rw [take?_zero_bytes]
      rfl
    | false =>
      have hfound' : (scanWith feed 0 s span).found = false := hfound
      rw [hfound'] at hscan
      have hrecalls : (scanWith feed 0 s span).scan.Recalls left (fed ++ span) := h.scan hfound
      have hplain : (s.scan span).scan.escapes = false :=
        ((Flushable.mk hp h.matched_le).scan [] span).2.plain
      have hconsumed : fed.length + (scanWith feed 0 s span).consumed = (fed ++ span).length := by
        rw [consumed_of_not_found s span hfound, List.length_append]
      rw [hscan, pass_of_not_found hprefix hfound (.inl ⟨hp, h.matched_le⟩)]
      dsimp only
      have hleft : (scanWith feed 0 s span).scan.bytes.left = (scanWith feed 0 s span).scan.left := rfl
      rw [hleft, hrecalls.take?_bytes]
      dsimp only
      have hrest := ih hrecalls.take.1 hplain
      rw [hconsumed, hrest, List.flatten_cons, List.append_assoc, List.length_append]
      rfl

end TextScan

end Stencil
