import Stencil.Proofs.Offsets
import Stencil.Proofs.Source

/-! Literal text in any spans.

Literal text is written up to the leftmost left delimiter, in whatever spans the window hands it out
(`Rendering.passText_of_handsOut`). Any spans can be handed out (`Window.exists_handsOut`). -/
namespace Stencil

/-! ### Spans -/

namespace Window
variable {σ : Type} [CharSource σ]

/-- The window hands out its text from the cursor on in these spans, one whenever the one before it was
passed over, and then it ends. -/
inductive HandsOut : (spans : List (List Char)) → Window σ → Pool → Prop where
  | done {w w' : Window σ} {pool pool' : Pool} (hw : w.span pool = (.ok [], w', pool')) :
      HandsOut [] w pool
  | span {w w' : Window σ} {pool pool' : Pool} {c : Char} {cs : List Char} {spans : List (List Char)}
      (hw : w.span pool = (.ok (c :: cs), w', pool'))
      (hrest : HandsOut spans (w'.advance (c :: cs).length) pool') :
      HandsOut ((c :: cs) :: spans) w pool

end Window

/-- The source of a text that is given in these spans. -/
def FlakySource.ofSpans (spans : List (List Char)) : FlakySource where
  text := spans.flatten
  plan := spans.map fun span => .ok (span.length - 1)

theorem FlakySource.read_ofSpans_cons {c : Char} {cs : List Char} {spans : List (List Char)} {limit : Nat}
    (h : (c :: cs).length ≤ limit) :
    CharSource.read (ofSpans ((c :: cs) :: spans)) limit = (.ok (c :: cs), ofSpans spans) := by
  have hmin : min limit (cs.length + 1) = (c :: cs).length := Nat.min_eq_right h
  show (Except.ok (((c :: cs) ++ spans.flatten).take (min limit (cs.length + 1))),
    FlakySource.mk (((c :: cs) ++ spans.flatten).drop (min limit (cs.length + 1))) _) = _
  rw [hmin, List.take_left, List.drop_left]
  rfl

theorem FlakySource.read_ofSpans_nil (limit : Nat) :
    CharSource.read (ofSpans []) limit = (.ok [], ofSpans []) := by
  show (Except.ok (([] : List Char).take limit), FlakySource.mk (([] : List Char).drop limit) []) = _
  rw [List.take_nil, List.drop_nil]
  rfl

namespace Window
variable {spans : List (List Char)} {size : Nat} {w : Window FlakySource}

/-- The window stands at the end of what is at hand, and has room for spans that its source gives. -/
structure Poised (spans : List (List Char)) (size : Nat) (w : Window FlakySource) : Prop where
  supply : w.supply = .streaming (.ofSpans spans) size false
  segments : w.segments = [] ∧ spans.flatten.length < size ∨
    ∃ last, w.segments = [last] ∧ last.stop = w.cursor ∧
      last.text.length + spans.flatten.length < last.buffer.size

namespace Poised

theorem rest?_eq_none (h : w.Poised spans size) : w.rest? = none := by
  unfold rest?
  rcases h.segments with ⟨hs, -⟩ | ⟨last, hs, hstop, -⟩
  · rw [hs]
    rfl
  · have hholds : last.holds w.cursor = false := by
      rw [Segment.holds, hstop, decide_eq_false (Nat.lt_irrefl _), Bool.and_false]
    rw [hs]
    show Option.map _ (List.find? _ [last]) = none
    rw [List.find?_cons, hholds]
    rfl

/-- The segment that is read into. -/
theorem makeRoom (h : w.Poised spans size) (pool : Pool) :
    ∃ last pool', w.makeRoom size pool = ([], last, pool') ∧ last.stop = w.cursor ∧
      last.text.length + spans.flatten.length < last.buffer.size := by
  unfold Window.makeRoom
  rcases h.segments with ⟨hs, hlt⟩ | ⟨last, hs, hstop, hlt⟩
  · rw [hs]
    refine ⟨_, _, rfl, Nat.add_zero _, ?_⟩
    show 0 + _ < (pool.checkOut size).1.size
    rw [Pool.size_checkOut, Nat.zero_add]
    exact hlt
  · have hfull : last.isFull = false := decide_eq_false (by omega)
    rw [hs]
    show ∃ _ _, (if last.isFull then _ else _) = _ ∧ _
    rw [hfull]
    exact ⟨last, pool, rfl, hstop, hlt⟩

/-- The next span is read behind what is at hand. -/
theorem fill_cons {c : Char} {cs : List Char} (h : w.Poised ((c :: cs) :: spans) size) (pool : Pool) :
    ∃ last pool', last.stop = w.cursor ∧
      last.text.length + (c :: cs).length + spans.flatten.length < last.buffer.size ∧
      w.fill pool = (.ok true, w.filled [] last (.ofSpans spans) size false (c :: cs), pool') := by
  obtain ⟨last, pool', hroom, hstop, hlt⟩ := h.makeRoom pool
  rw [List.flatten_cons, List.length_append] at hlt
  refine ⟨last, pool', hstop, by omega, ?_⟩
  have hread := @FlakySource.read_ofSpans_cons c cs spans (last.buffer.size - last.text.length) (by omega)
  unfold fill
  rw [h.supply]
  dsimp only
  rw [if_neg Bool.false_ne_true, hroom]
  dsimp only
  rw [hread]

/-- What was read is at hand. -/
theorem rest?_filled {last : Segment} (hstop : last.stop = w.cursor) {source : FlakySource} {ended : Bool}
    (c : Char) (cs : List Char) :
    (w.filled [] last source size ended (c :: cs)).rest? = some (c :: cs) := by
  have hcursor : w.cursor = last.start + last.text.length := hstop.symm
  have hholds : ({ last with text := last.text ++ c :: cs } : Segment).holds w.cursor = true := by
    rw [Segment.holds, Segment.stop, hcursor, Bool.and_eq_true, decide_eq_true_eq, decide_eq_true_eq,
      List.length_append, List.length_cons]
    dsimp only
    omega
  unfold rest? filled
  show Option.map _ (List.find? (·.holds w.cursor) [{ last with text := last.text ++ c :: cs }]) = _
  rw [List.find?_cons, hholds]
  show some ((last.text ++ c :: cs).drop (w.cursor - last.start)) = _
  rw [hcursor, Nat.add_sub_cancel_left, List.drop_left]

/-- The spans are handed out one after the other. -/
theorem handsOut (h : w.Poised spans size) (hne : ∀ span ∈ spans, span ≠ []) (pool : Pool) :
    w.HandsOut spans pool := by
  induction spans generalizing w pool with
  | nil =>
    obtain ⟨last, pool', hroom, -, -⟩ := h.makeRoom pool
    have hfill : w.fill pool = (.ok false, w.filled [] last (.ofSpans []) size true [], pool') := by
      unfold fill
      rw [h.supply]
      dsimp only
      rw [if_neg Bool.false_ne_true, hroom]
      dsimp only
      rw [FlakySource.read_ofSpans_nil]
    exact .done (span_of_fill h.rest?_eq_none hfill)
  | cons span spans ih =>
    obtain ⟨c, cs, rfl⟩ := List.exists_cons_of_ne_nil (hne span List.mem_cons_self)
    obtain ⟨last, pool', hstop, hlt, hfill⟩ := h.fill_cons pool
    have hspan : w.span pool =
        (.ok (c :: cs), w.filled [] last (.ofSpans spans) size false (c :: cs), pool') := by
      rw [span_of_fill h.rest?_eq_none hfill, if_pos rfl, Window.span, rest?_filled hstop]
    refine .span hspan (ih ⟨rfl, .inr ⟨{ last with text := last.text ++ c :: cs }, rfl, ?_, ?_⟩⟩
      (fun span hs => hne span (List.mem_cons_of_mem _ hs)) pool')
    · show last.start + (last.text ++ c :: cs).length = w.cursor + (c :: cs).length
      rw [← hstop, Segment.stop, List.length_append, Nat.add_assoc]
    · show (last.text ++ c :: cs).length + _ < last.buffer.size
      rw [List.length_append]
      exact hlt

end Poised

/-- Any spans can be handed out. -/
theorem exists_handsOut (hne : ∀ span ∈ spans, span ≠ []) (pool : Pool) :
    ∃ (source : FlakySource) (size : Nat), (streaming source size).HandsOut spans pool := by
  have hroom : spans.flatten.length < max (spans.flatten.length + 1) 1 :=
    Nat.lt_of_lt_of_le (Nat.lt_succ_self _) (Nat.le_max_left _ _)
  exact ⟨.ofSpans spans, spans.flatten.length + 1, Poised.handsOut ⟨rfl, .inl ⟨rfl, hroom⟩⟩ hne pool⟩

end Window

/-! ### Sinks that take a text -/

namespace Sink

/-- What takes a text takes it in two pieces as well. -/
theorem write_append {sink : Sink} {text more : List Char}
    (h : (sink.write (text ++ more)).1 = .ok ()) :
    (sink.write text).1 = .ok () ∧ (sink.write text).2.write more = sink.write (text ++ more) := by
  unfold write at h ⊢
  cases hr : sink.room with
  | none =>
    dsimp only
    rw [String.ofList_append, String.append_assoc]
    exact ⟨rfl, rfl⟩
  | some room =>
    rw [hr] at h
    dsimp only at h ⊢
    by_cases hfits : Text.utf8Length (text ++ more) ≤ room
    · have hsum := Text.utf8Length_append text more
      have hmore : Text.utf8Length more ≤ room - Text.utf8Length text := by omega
      rw [if_pos (show Text.utf8Length text ≤ room by omega), if_pos hfits]
      dsimp only
      rw [if_pos hmore, String.ofList_append, String.append_assoc, hsum, Nat.sub_add_eq]
      exact ⟨rfl, rfl⟩
    · rw [if_neg hfits] at h
      cases h

end Sink

namespace Rendering
variable {κ σ : Type} {r : Rendering κ σ}

theorem writeLiteral_of_live (hlive : r.state.frames.suppressed = false) {text : List Char}
    (h : (r.sink.write text).1 = .ok ()) :
    r.writeLiteral text = (.ok (), { r with sink := (r.sink.write text).2 }) := by
  unfold writeLiteral
  rw [if_neg (ne_true_of_eq_false hlive)]
  exact Prod.ext h rfl

variable [CharSource σ]

/-- A span with a left delimiter in it, where the sink takes the literal text. -/
theorem passText_of_found {r' : Rendering κ σ} {scan : TextScan} {c : Char} {cs : List Char}
    (h : r.span = (.ok (c :: cs), r')) (hlive : r'.state.frames.suppressed = false)
    (hfound : (scan.scan (c :: cs)).found = true)
    (hroom : (r'.sink.write ((scan.scan (c :: cs)).scan.take 0).1).1 = .ok ()) :
    r.passText scan = (.ok true, { r'.advance (scan.scan (c :: cs)).consumed with
      sink := (r'.sink.write ((scan.scan (c :: cs)).scan.take 0).1).2 }) := by
  have hwrite := @writeLiteral_of_live κ σ (r'.advance (scan.scan (c :: cs)).consumed) hlive _ hroom
  rw [passText]
  split
  · next e r₁ hspan => cases h.symm.trans hspan
  · next r₁ hspan => cases h.symm.trans hspan
  · next hspan =>
    cases h.symm.trans hspan
    dsimp only
    rw [if_pos hfound, hwrite]
    rfl

/-- A span without one. -/
theorem passText_of_missed {r' : Rendering κ σ} {scan : TextScan} {c : Char} {cs : List Char}
    (h : r.span = (.ok (c :: cs), r')) (hlive : r'.state.frames.suppressed = false)
    (hfound : (scan.scan (c :: cs)).found = false) {taken : List Char × TextScan}
    (htaken : (scan.scan (c :: cs)).scan.take (scan.scan (c :: cs)).scan.left.matched = taken)
    (hroom : (r'.sink.write taken.1).1 = .ok ()) :
    r.passText scan = ({ r'.advance (c :: cs).length with
      sink := (r'.sink.write taken.1).2 } : Rendering κ σ).passText taken.2 := by
  have hconsumed : (scan.scan (c :: cs)).consumed = (c :: cs).length :=
    consumed_of_not_found scan (c :: cs) hfound
  subst htaken
  have hwrite := @writeLiteral_of_live κ σ (r'.advance (c :: cs).length) hlive _ hroom
  rw [passText]
  split
  · next e r₁ hspan => cases h.symm.trans hspan
  · next r₁ hspan => cases h.symm.trans hspan
  · next hspan =>
    cases h.symm.trans hspan
    dsimp only
    rw [if_neg (ne_true_of_eq_false hfound)]
    split
    · next he =>
      rw [hconsumed, hwrite] at he
      cases he
    · next he =>
      rw [hconsumed, hwrite] at he
      cases he
      rfl

/-- At the end of the text. -/
theorem passText_of_end {r' : Rendering κ σ} (scan : TextScan) (h : r.span = (.ok [], r'))
    (hlive : r'.state.frames.suppressed = false)
    (hroom : (r'.sink.write (scan.take 0).1).1 = .ok ()) :
    r.passText scan = (.ok false, { r' with sink := (r'.sink.write (scan.take 0).1).2 }) := by
  rw [passText]
  split
  · next e r₁ hspan => cases h.symm.trans hspan
  · next r₁ hspan =>
    cases h.symm.trans hspan
    rw [writeLiteral_of_live hlive hroom]
  · next hspan => cases h.symm.trans hspan

/-- Going through literal text comes to what is next in the text, in whatever spans it is handed out, and
writes what is in front. -/
theorem passText_of_handsOut {spans : List (List Char)} {scan : TextScan}
    (h : r.passage.window.HandsOut spans r.pool) (hlive : r.state.frames.suppressed = false)
    (hs : scan.Flushable) {fed : List Char} {passed : Passed Bool}
    (hp : scan.pass (fed ++ spans.flatten) none fed.length = passed)
    (hroom : (r.sink.write passed.literal).1 = .ok ()) :
    ∃ window pool, window.cursor + fed.length = r.passage.window.cursor + passed.cursor ∧
      r.passText scan = (passed.result,
        { r.withWindow window with pool, sink := (r.sink.write passed.literal).2 }) := by
  generalize hw : r.passage.window = w at h
  generalize hpool : r.pool = pool at h
  induction h generalizing r scan fed passed with
  | @done w w' pool pool' hspan =>
    subst hw hpool
    have hcursor : w'.cursor = r.passage.window.cursor := by
      rw [← Window.cursor_span r.passage.window r.pool, hspan]
    have hr : r.span = (.ok [], { r.withWindow w' with pool := pool' }) := by
      rw [Rendering.span, hspan]
    rw [List.flatten_nil, List.append_nil, TextScan.pass_of_end] at hp
    subst hp
    exact ⟨w', pool', by rw [hcursor], passText_of_end scan hr hlive hroom⟩
  | @span w w' pool pool' c cs spans hspan hrest ih =>
    subst hw hpool
    have hcursor : w'.cursor = r.passage.window.cursor := by
      rw [← Window.cursor_span r.passage.window r.pool, hspan]
    have hr : r.span = (.ok (c :: cs), { r.withWindow w' with pool := pool' }) := by
      rw [Rendering.span, hspan]
    have hprefix : c :: cs <+: (fed ++ ((c :: cs) :: spans).flatten).drop fed.length := by
      rw [List.drop_left]
      exact List.prefix_append _ _
    cases hfound : (scan.scan (c :: cs)).found with
    | true =>
      rw [TextScan.pass_of_found hprefix hfound] at hp
      subst hp
      refine ⟨w'.advance (scan.scan (c :: cs)).consumed, pool', ?_, ?_⟩
      · show w'.cursor + _ + fed.length = _ + (fed.length + _)
        omega
      · rw [passText_of_found hr hlive hfound hroom]
        rfl
    | false =>
      have hpass := @TextScan.pass_of_not_found _ none fed.length scan (c :: cs) hprefix hfound (.inl hs)
      have hflushable := (hs.scan [] (c :: cs)).2.take.1
      generalize htaken : (scan.scan (c :: cs)).scan.take (scan.scan (c :: cs)).scan.left.matched = taken
        at hpass
      rw [hp, List.flatten_cons, ← List.append_assoc, ← List.length_append] at hpass
      subst hpass
      obtain ⟨htakes, hmore⟩ := Sink.write_append hroom
      rw [← hmore] at hroom ⊢
      obtain ⟨window, pool, hplace, htext⟩ :=
        @ih { ({ r.withWindow w' with pool := pool' } : Rendering κ σ).advance (c :: cs).length with
          sink := (r.sink.write taken.1).2 } taken.2 hlive (htaken ▸ hflushable) (fed ++ (c :: cs)) _ rfl
          hroom rfl rfl
      refine ⟨window, pool, ?_, ?_⟩
      · have hadvance : window.cursor + (fed ++ (c :: cs)).length =
            w'.cursor + (c :: cs).length + _ := hplace
        rw [List.length_append] at hadvance ⊢
        dsimp only
        omega
      · rw [passText_of_missed hr hlive hfound htaken htakes]
        exact htext

end Rendering

/-! ### Up to the leftmost delimiter -/

namespace TextScan
variable {left : List Char}

/-- In a whole text the leftmost delimiter is found, where no backslash counts. -/
theorem pass_plain (hn : left ≠ []) (text : List Char) :
    (plain left).pass text none 0 =
      match Text.find? left text with
      | some n => ⟨.ok true, n + left.length, text.take n⟩
      | none => ⟨.ok false, text.length, text⟩ := by
  have hfollows : (plain left).left.Follows [] := Matcher.follows_ofPattern left
  unfold pass
  rw [List.drop_zero]
  cases hfind : Text.find? left text with
  | some n =>
    have hscan : (plain left).scan text = ⟨n + left.length, true, _⟩ := scan_of_find? hfollows hn hfind
    rw [hscan]
    dsimp only
    rw [if_pos rfl, Nat.zero_add]
    exact congrArg (Passed.mk _ _) (List.reverse_reverse _)
  | none =>
    have hmiss : (plain left).left.pattern ≠ [] → ∀ n, n < text.length →
        ¬(plain left).left.pattern <:+ [] ++ text.take (n + 1) := fun _ n hlt hs =>
      Text.find?_eq_none hfind _ (Text.isPrefix_drop hlt hs).2
    obtain ⟨matched, -, hscan⟩ := scan_of_miss hfollows hmiss
    have hheld : ((text.reverse ++ []).drop 0).reverse = text := by
      rw [List.append_nil, List.drop_zero, List.reverse_reverse]
    rw [hscan]
    dsimp only
    rw [if_neg Bool.false_ne_true]
    exact congrArg (Passed.mk _ _) hheld

/-- **Literal text passes through up to the leftmost left delimiter**, in whatever spans it comes.
Whatever the delimiter is, if not empty, the search gets through any spans with byte offsets that lie in
the literal text and on edges of characters only; in front of the leftmost delimiter it meets that part
of the text, or all of it if there is no delimiter, and it stops right behind. Any spans can be handed
out by a window, and a rendering that is handed them writes just this where output is not withheld and
the sink takes it; nothing else changes but what its window keeps at hand. -/
theorem passes_to_leftmost_delimiter (hn : left ≠ []) {spans : List (List Char)}
    (hne : ∀ span ∈ spans, span ≠ []) :
    let text := spans.flatten
    let passed : Passed Bool :=
      match Text.find? left text with
      | some n => ⟨.ok true, n + left.length, text.take n⟩
      | none => ⟨.ok false, text.length, text⟩
    (plain left).bytes.pass? 0 spans = some passed ∧
    (∀ pool, ∃ (source : FlakySource) (size : Nat),
      (Window.streaming source size).HandsOut spans pool) ∧
    ∀ {κ σ : Type} [CharSource σ] (r : Rendering κ σ), r.passage.window.HandsOut spans r.pool →
      r.state.frames.suppressed = false → (r.sink.write passed.literal).1 = .ok () →
      ∃ window pool, window.cursor = r.passage.window.cursor + passed.cursor ∧
        r.passText (plain left) = (passed.result,
          { r.withWindow window with pool, sink := (r.sink.write passed.literal).2 }) := by
  intro text passed
  have hpass : (plain left).pass ([] ++ spans.flatten) none 0 = passed := pass_plain hn text
  refine ⟨?_, Window.exists_handsOut hne, fun r hspans hlive hroom => ?_⟩
  · rw [← hpass]
    exact pass?_bytes (recalls_plain left []) rfl spans
  · exact Rendering.passText_of_handsOut hspans hlive (flushable_plain left) hpass hroom

/-- A delimiter that overlaps itself, of characters of two bytes, with its middle where a span ends. -/
theorem passes_to_leftmost_delimiter_of_overlap :
    let left := "ééb".toList
    let spans := ["aéé".toList, "éb".toList, "c".toList]
    (plain left).bytes.pass? 0 spans = some ⟨.ok true, 5, "aé".toList⟩ ∧
    ∃ (source : FlakySource) (size : Nat),
      let r : Rendering Unit FlakySource :=
        { passage := { level := 0, window := .streaming source size }
          state := { vars := {}, memory := () }
          pool := { maxIdle := 0 } }
      (r.passText (plain left)).1 = .ok true ∧
        (r.passText (plain left)).2.passage.window.cursor = 5 ∧
        (r.passText (plain left)).2.sink.text = "aé" := by
  intro left spans
  obtain ⟨hbytes, hexists, hpass⟩ := @passes_to_leftmost_delimiter left (by decide) spans (by decide)
  obtain ⟨source, size, hspans⟩ := hexists { maxIdle := 0 }
  let r : Rendering Unit FlakySource :=
    { passage := { level := 0, window := .streaming source size }
      state := { vars := {}, memory := () }
      pool := { maxIdle := 0 } }
  obtain ⟨window, pool, hcursor, htext⟩ := hpass r hspans rfl rfl
  refine ⟨hbytes, source, size, ?_⟩
  show (r.passText (plain left)).1 = _ ∧ (r.passText (plain left)).2.passage.window.cursor = _ ∧
    (r.passText (plain left)).2.sink.text = _
  rw [htext]
  exact ⟨rfl, hcursor, rfl⟩

end TextScan

end Stencil
