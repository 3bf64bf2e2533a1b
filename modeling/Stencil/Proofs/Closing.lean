import Stencil.Proofs.Quoting
import Stencil.Proofs.Scan

/-! Where a token ends.

A close scan depends on what it sees of the text since the last delimiter that counted
(`CloseScan.Stands`): in quotes it sees nothing, and where no delimiter ends it goes on as it is
(`Stands.scan_quiet`). So a right delimiter ends the token, or the innermost pair in it, behind any
text in which no delimiter is seen (`Stands.scan_right`), and a left one begins a pair there
(`Stands.scan_left`). From these two steps it follows of a whole token that it is recovered, whatever
follows and wherever the text is cut (`CloseScan.Recovers`). -/
namespace Stencil

/-- A matcher that starts over follows whatever it was fed, if that ends in a character which is not in
its delimiter. -/
theorem Matcher.Follows.cut {m : Matcher} {text : List Char} {c : Char} (h : m.Follows text)
    (hc : c ∉ m.pattern) (text' : List Char) : m.reset.Follows (text' ++ [c]) where
  exact := h.exact
  complete := h.complete
  longest := by
    refine ⟨Nat.zero_le _, List.nil_suffix, fun k hk hs => ?_⟩
    cases k with
    | zero => exact Nat.le_refl 0
    | succ k =>
      obtain ⟨hget, _⟩ := (take_succ_isSuffix_iff hk).1 hs
      exact absurd (List.mem_of_getElem? hget) hc
  lt_length := List.length_pos_iff.2

namespace CloseScan

/-- Delimiters that a token can be closed with: they are not empty, they differ, and there is no quote
in them. -/
structure Proper (left right : List Char) : Prop where
  left_ne_nil : left ≠ []
  right_ne_nil : right ≠ []
  ne : left ≠ right
  mark_notMem_left : Quoting.mark ∉ left
  mark_notMem_right : Quoting.mark ∉ right

/-- A scan in so many pairs of delimiters, which has seen some text since it last came upon one. -/
structure Stands (left right : List Char) (s : CloseScan) (depth : Nat) (q : Quoting)
    (seen : List Char) : Prop where
  left_pattern : s.left.pattern = left
  right_pattern : s.right.pattern = right
  nests : s.nests = true
  depth_eq : s.depth = depth
  quoting_eq : s.quoting = q
  left_follows : s.left.Follows seen
  right_follows : s.right.Follows seen
  /-- In quotes the matchers have started over. -/
  quoted : q ≠ .outside → s.left.reset = s.left ∧ s.right.reset = s.right

variable {left right seen : List Char} {s : CloseScan} {depth : Nat} {q : Quoting}

theorem stands_start (hp : Proper left right) : (start left right).Stands left right 0 .outside [] where
  left_pattern := rfl
  right_pattern := rfl
  nests := by simpa [start] using hp.ne
  depth_eq := rfl
  quoting_eq := rfl
  left_follows := Matcher.follows_ofPattern left
  right_follows := Matcher.follows_ofPattern right
  quoted h := absurd rfl h

namespace Stands

/-- A character that is not seen. -/
theorem feed_hidden (hp : Proper left right) (h : s.Stands left right depth q seen) {c : Char}
    (hc : q ≠ .outside ∨ c = Quoting.mark) :
    ∃ s', s.feed c = (false, s') ∧
      s'.Stands left right depth (q.next c) (seen ++ [Quoting.mark]) := by
  have hl := h.left_follows.cut (h.left_pattern ▸ hp.mark_notMem_left) seen
  have hr := h.right_follows.cut (h.right_pattern ▸ hp.mark_notMem_right) seen
  unfold CloseScan.feed
  by_cases hq : q = .outside
  · have hmark : c = Quoting.mark := hc.resolve_left fun hn => hn hq
    rw [if_pos (h.quoting_eq.trans hq), if_pos hmark]
    refine ⟨_, rfl, h.left_pattern, h.right_pattern, h.nests, h.depth_eq, ?_, hl, hr,
      fun _ => ⟨rfl, rfl⟩⟩
    rw [hq, hmark]
    rfl
  · obtain ⟨hleft, hright⟩ := h.quoted hq
    rw [if_neg fun he => hq (h.quoting_eq.symm.trans he)]
    refine ⟨_, rfl, h.left_pattern, h.right_pattern, h.nests, h.depth_eq, ?_, hleft ▸ hl,
      hright ▸ hr, fun _ => ⟨hleft, hright⟩⟩
    show s.quoting.next c = q.next c
    rw [h.quoting_eq]

/-- A character that is seen. -/
theorem feed_open (h : s.Stands left right depth .outside seen) {c : Char}
    (hc : c ≠ Quoting.mark) : s.feed c = s.feedOpen c := by
  unfold CloseScan.feed
  rw [if_pos h.quoting_eq, if_neg hc]

/-- A character that ends no delimiter. -/
theorem feed_quiet (hp : Proper left right) (h : s.Stands left right depth q seen) {c : Char}
    (hl : ¬left <:+ seen ++ [q.shown c]) (hr : ¬right <:+ seen ++ [q.shown c]) :
    ∃ s', s.feed c = (false, s') ∧
      s'.Stands left right depth (q.next c) (seen ++ [q.shown c]) := by
  by_cases hc : q ≠ .outside ∨ c = Quoting.mark
  · have hshown : q.shown c = Quoting.mark := by
      unfold Quoting.shown
      split
      · next hq => exact hc.resolve_left fun hn => hn hq
      · rfl
    rw [hshown]
    exact h.feed_hidden hp hc
  · obtain ⟨hq, hmark⟩ := not_or.1 hc
    obtain rfl : q = .outside := Decidable.not_not.1 hq
    rw [Quoting.shown_outside] at hl hr ⊢
    have hright : s.right.pattern ≠ [] := h.right_pattern ▸ hp.right_ne_nil
    have hleft : s.left.pattern ≠ [] := h.left_pattern ▸ hp.left_ne_nil
    rcases h.right_follows.feed hright c with ⟨hs, _⟩ | ⟨_, m, hm, hmf⟩
    · exact absurd (h.right_pattern ▸ hs) hr
    · rcases h.left_follows.feed hleft c with ⟨hs, _⟩ | ⟨_, n, hn, hnf⟩
      · exact absurd (h.left_pattern ▸ hs) hl
      · rw [h.feed_open hmark, feedOpen, hm, h.nests, if_pos rfl, hn]
        refine ⟨_, rfl, h.left_pattern, h.right_pattern, rfl, h.depth_eq, ?_, hnf, hmf,
          fun hn => absurd ?_ hn⟩
        · exact h.quoting_eq.trans (if_neg hmark).symm
        · exact if_neg hmark

/-- The last character of a right delimiter closes the token, or the innermost pair in it. -/
theorem feed_right (hp : Proper left right) (h : s.Stands left right depth .outside seen) {c : Char}
    (hc : c ≠ Quoting.mark) (hr : right <:+ seen ++ [c]) :
    ∃ s', match depth with
      | 0 => s.feed c = (true, s')
      | depth + 1 => s.feed c = (false, s') ∧ s'.Stands left right depth .outside [] := by
  have hright : s.right.pattern ≠ [] := h.right_pattern ▸ hp.right_ne_nil
  rcases h.right_follows.feed hright c with ⟨_, hm⟩ | ⟨hs, _⟩
  · rw [h.feed_open hc, feedOpen, hm]
    cases hl : if s.nests then s.left.feed c else (false, s.left) with
    | mk opens left' =>
      dsimp only
      rw [if_pos rfl, h.depth_eq]
      have hl' : left'.reset.Follows [] ∧ left'.pattern = left := by
        rw [h.nests, if_pos rfl] at hl
        have hleft : s.left.pattern ≠ [] := h.left_pattern ▸ hp.left_ne_nil
        rcases h.left_follows.feed hleft c with ⟨_, hf⟩ | ⟨_, n, hf, hnf⟩
        · cases hf.symm.trans hl
          exact ⟨h.left_follows.reset.reset, h.left_pattern⟩
        · cases hf.symm.trans hl
          exact ⟨hnf.reset, h.left_pattern⟩
      cases depth with
      | zero => exact ⟨_, if_pos rfl⟩
      | succ depth =>
        rw [if_neg (Nat.succ_ne_zero depth)]
        exact ⟨_, rfl, hl'.2, h.right_pattern, h.nests, rfl, h.quoting_eq, hl'.1,
          h.right_follows.reset, fun hn => absurd rfl hn⟩
  · exact absurd (h.right_pattern ▸ hr) hs

/-- The last character of a left delimiter begins a pair. -/
theorem feed_left (hp : Proper left right) (h : s.Stands left right depth .outside seen) {c : Char}
    (hc : c ≠ Quoting.mark) (hr : ¬right <:+ seen ++ [c]) (hl : left <:+ seen ++ [c]) :
    ∃ s', s.feed c = (false, s') ∧ s'.Stands left right (depth + 1) .outside [] := by
  have hright : s.right.pattern ≠ [] := h.right_pattern ▸ hp.right_ne_nil
  have hleft : s.left.pattern ≠ [] := h.left_pattern ▸ hp.left_ne_nil
  rcases h.right_follows.feed hright c with ⟨hs, _⟩ | ⟨_, m, hm, hmf⟩
  · exact absurd (h.right_pattern ▸ hs) hr
  · rcases h.left_follows.feed hleft c with ⟨_, hn⟩ | ⟨hs, _⟩
    · rw [h.feed_open hc, feedOpen, hm, h.nests, if_pos rfl, hn]
      exact ⟨_, rfl, h.left_pattern, h.right_pattern, rfl, congrArg (· + 1) h.depth_eq,
        h.quoting_eq, h.left_follows.reset, hmf.reset, fun hn => absurd rfl hn⟩
    · exact absurd (h.left_pattern ▸ hl) hs

/-- A text in which no delimiter ends. -/
theorem scan_quiet (hp : Proper left right) (h : s.Stands left right depth q seen) (text : List Char)
    (hq : ∀ piece, piece <+: q.mask text → piece ≠ [] →
      ¬left <:+ seen ++ piece ∧ ¬right <:+ seen ++ piece) :
    (s.scan text).found = false ∧
      (s.scan text).scan.Stands left right depth (q.after text) (seen ++ q.mask text) := by
  induction text generalizing s q seen with
  | nil => exact ⟨rfl, by rw [show q.mask [] = [] from rfl, List.append_nil]; exact h⟩
  | cons c rest ih =>
    have hshown := hq [q.shown c] ⟨(q.next c).mask rest, rfl⟩ (List.cons_ne_nil _ _)
    obtain ⟨s', hf, hs'⟩ := h.feed_quiet hp hshown.1 hshown.2
    have hrest := ih hs' fun piece hpiece hn => by
      have := hq (q.shown c :: piece) ((List.cons_prefix_cons).2 ⟨rfl, hpiece⟩) (List.cons_ne_nil _ _)
      rwa [List.append_cons] at this
    unfold CloseScan.scan at hrest ⊢
    rw [scanWith_miss hf]
    refine ⟨hrest.1, ?_⟩
    show (scanWith CloseScan.feed 0 s' rest).scan.Stands left right depth ((q.next c).after rest)
      (seen ++ q.shown c :: (q.next c).mask rest)
    rw [List.append_cons]
    exact hrest.2

end Stands

/-! ### Behind a text in which no delimiter is seen -/

/-- No delimiter is seen in this text, nor where it goes on with a delimiter that is not complete. -/
structure Clear (left right tail text : List Char) : Prop where
  balanced : Quoting.Balanced text
  not_left : ¬left <:+: Quoting.outside.mask text ++ tail.dropLast
  not_right : ¬right <:+: Quoting.outside.mask text ++ tail.dropLast

/-- A scan goes on where it stopped. -/
theorem scan_append {text : List Char} (h : (s.scan text).found = false) (more : List Char) :
    s.scan (text ++ more) =
      ⟨text.length + ((s.scan text).scan.scan more).consumed, ((s.scan text).scan.scan more).found,
        ((s.scan text).scan.scan more).scan⟩ :=
  scanWith_append h more

namespace Stands

/-- A delimiter behind a text in which none is seen, up to its last character. -/
theorem scan_dropLast (hp : Proper left right) (h : s.Stands left right depth .outside [])
    {text tail : List Char} (hm : Quoting.mark ∉ tail) (hc : Clear left right tail text) :
    (s.scan (text ++ tail.dropLast)).found = false ∧
      (s.scan (text ++ tail.dropLast)).scan.Stands left right depth .outside
        (Quoting.outside.mask text ++ tail.dropLast) := by
  obtain ⟨hbalanced, htail⟩ :=
    Quoting.of_notMem_mark fun hmem => hm (List.dropLast_subset tail hmem)
  have hmask : Quoting.outside.mask (text ++ tail.dropLast) =
      Quoting.outside.mask text ++ tail.dropLast := by
    rw [hc.balanced.mask_append, htail]
  have hscan := h.scan_quiet hp (text ++ tail.dropLast) fun piece hpiece _ => by
    rw [hmask] at hpiece
    exact ⟨fun hs => hc.not_left (hs.isInfix.trans hpiece.isInfix),
      fun hs => hc.not_right (hs.isInfix.trans hpiece.isInfix)⟩
  rw [hmask, hc.balanced.append hbalanced, List.nil_append] at hscan
  exact hscan

/-- A right delimiter behind a text in which none is seen closes the token, or the innermost pair in
it. -/
theorem scan_right (hp : Proper left right) (h : s.Stands left right depth .outside [])
    {text : List Char} (hc : Clear left right right text) :
    match depth with
    | 0 => (s.scan (text ++ right)).found = true ∧
        (s.scan (text ++ right)).consumed = (text ++ right).length
    | depth + 1 => (s.scan (text ++ right)).found = false ∧
        (s.scan (text ++ right)).scan.Stands left right depth .outside [] := by
  obtain ⟨hmiss, hstands⟩ := h.scan_dropLast hp hp.mark_notMem_right hc
  have hlast : right.getLast hp.right_ne_nil ≠ Quoting.mark := fun hm =>
    hp.mark_notMem_right (hm ▸ List.getLast_mem hp.right_ne_nil)
  have hsuffix : right <:+ Quoting.outside.mask text ++ right.dropLast ++
      [right.getLast hp.right_ne_nil] := by
    rw [List.append_assoc, List.dropLast_concat_getLast]
    exact List.suffix_append _ _
  obtain ⟨s', hfeed⟩ := hstands.feed_right hp hlast hsuffix
  have hcut : text ++ right = text ++ right.dropLast ++ [right.getLast hp.right_ne_nil] := by
    rw [List.append_assoc, List.dropLast_concat_getLast]
  rw [hcut, scan_append hmiss]
  cases depth with
  | zero =>
    have hscan : CloseScan.scan _ [_] = _ := scanWith_hit hfeed []
    rw [hscan]
    refine ⟨rfl, ?_⟩
    show (text ++ right.dropLast).length + [right.getLast hp.right_ne_nil].length = _
    exact List.length_append.symm
  | succ depth =>
    have hscan : CloseScan.scan _ [_] = _ := scanWith_miss hfeed.1 []
    rw [hscan]
    exact ⟨rfl, hfeed.2⟩

/-- A left delimiter behind a text in which none is seen begins a pair. -/
theorem scan_left (hp : Proper left right) (h : s.Stands left right depth .outside [])
    {text : List Char} (hc : Clear left right left text)
    (hr : ¬right <:+: Quoting.outside.mask text ++ left) :
    (s.scan (text ++ left)).found = false ∧
      (s.scan (text ++ left)).scan.Stands left right (depth + 1) .outside [] := by
  obtain ⟨hmiss, hstands⟩ := h.scan_dropLast hp hp.mark_notMem_left hc
  have hlast : left.getLast hp.left_ne_nil ≠ Quoting.mark := fun hm =>
    hp.mark_notMem_left (hm ▸ List.getLast_mem hp.left_ne_nil)
  have hwhole : Quoting.outside.mask text ++ left.dropLast ++ [left.getLast hp.left_ne_nil] =
      Quoting.outside.mask text ++ left := by
    rw [List.append_assoc, List.dropLast_concat_getLast]
  obtain ⟨s', hfeed, hs'⟩ := hstands.feed_left hp hlast
    (fun hs => hr (hwhole ▸ hs).isInfix) (hwhole ▸ List.suffix_append _ _)
  have hcut : text ++ left = text ++ left.dropLast ++ [left.getLast hp.left_ne_nil] := by
    rw [List.append_assoc, List.dropLast_concat_getLast]
  have hscan : CloseScan.scan _ [_] = _ := scanWith_miss hfeed []
  rw [hcut, scan_append hmiss, hscan]
  exact ⟨rfl, hs'⟩

end Stands

/-! ### Tokens, wherever their text is cut -/

/-- Scan one span of text after another until the token ends. -/
def scanSpans (s : CloseScan) : List (List Char) → Scanned CloseScan
  | [] => ⟨0, false, s⟩
  | span :: spans =>
    let scanned := s.scan span
    if scanned.found then scanned
    else
      let more := scanSpans scanned.scan spans
      { more with consumed := scanned.consumed + more.consumed }

/-- It does not matter where a text is cut. -/
theorem scanSpans_eq (s : CloseScan) (spans : List (List Char)) :
    s.scanSpans spans = s.scan spans.flatten := by
  induction spans generalizing s with
  | nil => rfl
  | cons span spans ih =>
    unfold scanSpans
    rw [List.flatten_cons]
    dsimp only
    split
    · next hf => exact (scanWith_append_of_found hf _).symm
    · next hf =>
      have hmiss := Bool.eq_false_iff.2 hf
      have hconsumed : (s.scan span).consumed = span.length := consumed_of_not_found s span hmiss
      rw [scan_append hmiss, ih, hconsumed]

/-- Behind a left delimiter, a text is scanned as the body of a token with its right delimiter,
whatever follows and wherever the text is cut. -/
def Recovers (left right body : List Char) : Prop :=
  ∀ spans rest, spans.flatten = body ++ right ++ rest →
    ((start left right).scanSpans spans).found = true ∧
      ((start left right).scanSpans spans).consumed = (body ++ right).length ∧
      ((start left right).scanSpans spans).scan.text = body

/-- What follows the first place where the token can end is not looked at. -/
theorem recovers_of_scan {body : List Char}
    (hf : ((start left right).scan (body ++ right)).found = true)
    (hc : ((start left right).scan (body ++ right)).consumed = (body ++ right).length) :
    Recovers left right body := by
  intro spans rest hspans
  have hwhole : (start left right).scan (body ++ right ++ rest) =
      (start left right).scan (body ++ right) := scanWith_append_of_found hf rest
  have htext := ((follows_start left right).scan (body ++ right)).2 hf
  rw [hc, List.take_length, List.nil_append] at htext
  rw [scanSpans_eq, hspans, hwhole]
  exact ⟨hf, hc, List.append_cancel_right htext⟩

/-- A text in which no delimiter is seen. -/
theorem recovers_of_clear (hp : Proper left right) {body : List Char}
    (hc : Clear left right right body) : Recovers left right body := by
  obtain ⟨hf, hconsumed⟩ := (stands_start hp).scan_right hp hc
  exact recovers_of_scan hf hconsumed

/-- A text that ends in a pair of delimiters, with texts in which none is seen in front of it and in
it. -/
theorem recovers_of_pair (hp : Proper left right) {front inner : List Char}
    (hc : Clear left right left front) (hr : ¬right <:+: Quoting.outside.mask front ++ left)
    (hi : Clear left right right inner) (hn : Clear left right right []) :
    Recovers left right (front ++ left ++ inner ++ right) := by
  obtain ⟨hleft, hopened⟩ := (stands_start hp).scan_left hp hc hr
  obtain ⟨hright, hclosed⟩ := hopened.scan_right hp hi
  obtain ⟨hend, hconsumed⟩ := hclosed.scan_right hp hn
  rw [List.nil_append] at hend hconsumed
  have hcut : front ++ left ++ inner ++ right = front ++ left ++ (inner ++ right) :=
    List.append_assoc ..
  have hpair := scan_append hleft (inner ++ right)
  rw [← hcut] at hpair
  have hmiss : ((start left right).scan (front ++ left ++ inner ++ right)).found = false := by
    rw [hpair]
    exact hright
  have hall := scan_append hmiss right
  rw [hpair] at hall
  refine recovers_of_scan ?_ ?_
  · rw [hall]
    exact hend
  · rw [hall]
    exact (congrArg (_ + ·) hconsumed).trans List.length_append.symm

/-- What one pair of delimiters wraps. -/
theorem unwrap?_of_recovers {inner : List Char} (h : Recovers left right inner) :
    unwrap? left right (left ++ inner ++ right) = some inner := by
  obtain ⟨hf, hconsumed, -⟩ := h [inner ++ right] [] (by simp)
  rw [scanSpans_eq, List.flatten_singleton] at hf hconsumed
  have hprefix : left.isPrefixOf (left ++ inner ++ right) = true := by
    rw [List.append_assoc]
    exact List.isPrefixOf_iff_prefix.2 (List.prefix_append _ _)
  have hdrop : (left ++ inner ++ right).drop left.length = inner ++ right := by
    rw [List.append_assoc, List.drop_left]
  unfold unwrap?
  rw [if_pos hprefix, hdrop]
  dsimp only
  rw [hf, hconsumed, if_pos (by rw [Bool.true_and]; exact decide_eq_true rfl)]
  rw [List.length_append, Nat.add_sub_cancel, List.take_left]

/-- Nothing but one pair is unwrapped. -/
theorem recovers_of_unwrap? {text inner : List Char} (h : unwrap? left right text = some inner) :
    text = left ++ inner ++ right ∧ Recovers left right inner := by
  unfold unwrap? at h
  split at h
  · next hprefix =>
    obtain ⟨rest, rfl⟩ := List.isPrefixOf_iff_prefix.1 hprefix
    rw [List.drop_left] at h
    dsimp only at h
    split at h
    · next hwhole =>
      obtain ⟨hf, hc⟩ := Bool.and_eq_true_iff.1 hwhole
      have hc := of_decide_eq_true hc
      have htext := ((follows_start left right).scan rest).2 hf
      rw [hc, List.take_length, List.nil_append] at htext
      generalize ((start left right).scan rest).scan.text = body at htext
      subst htext
      rw [List.length_append, Nat.add_sub_cancel, List.take_left] at h
      cases h
      exact ⟨(List.append_assoc ..).symm, recovers_of_scan hf hc⟩
    · cases h
  · cases h

end CloseScan

end Stencil
