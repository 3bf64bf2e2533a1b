import Stencil.Proofs.Escapes
import Stencil.Proofs.Passage

/-! What lies ahead of a rendering.

What a rendering comes upon depends on the text from its cursor on and on how that text ends, but not
on the pieces in which its window gives the text: `Host.look` says what lies ahead in a text, and
`sees_meet` that this is what a rendering comes upon, over any source. -/
namespace Stencil

/-! ### Windows that tell how their text ends -/

namespace Window
variable {σ : Type} {text : List Char} {ending : Option String}

/-- All of the text is there, in one stretch. -/
structure Whole (text : List Char) (w : Window σ) : Prop where
  supply : w.supply = .fixed
  segments : w.segments = [{ start := 0, text, buffer := ⟨text.length⟩ }]
  cursor_le : w.cursor ≤ text.length

theorem whole_fixed (text : List Char) : (fixed text : Window σ).Whole text :=
  ⟨rfl, rfl, Nat.zero_le _⟩

theorem Whole.residentStart {w : Window σ} (h : w.Whole text) : w.residentStart = 0 := by
  unfold Window.residentStart
  rw [h.segments]
  rfl

theorem Whole.residentStop {w : Window σ} (h : w.Whole text) : w.residentStop = text.length := by
  unfold Window.residentStop
  rw [h.segments]
  exact Nat.zero_add _

end Window

namespace Rendering
variable {σ : Type} {text : List Char}

theorem follow_supply (w : Window σ) (kind : Token.Kind) (action : Action) (pool : Pool) :
    (follow w kind action pool).1.supply = w.supply := by
  unfold follow Window.closeLoop
  split
  · rfl
  · split
    · split <;> rfl
    · rfl

/-- A window on all of a text stays one whatever loops it follows. -/
theorem follow_whole {w : Window σ} (h : w.Whole text) (kind : Token.Kind) (action : Action)
    (pool : Pool) : (follow w kind action pool).1.Whole text := by
  refine ⟨(follow_supply ..).trans h.supply, ?_, ?_⟩
  · unfold follow Window.closeLoop
    split
    · exact h.segments
    · split
      · split
        · exact h.segments
        · show Window.dropBehind w.cursor w.segments = _
          rw [h.segments]
          rfl
        · exact h.segments
      · exact h.segments
  · rw [follow_cursor]
    exact h.cursor_le

end Rendering

namespace Window
variable {σ : Type} {text : List Char} {ending : Option String} [CharSource σ]

/-- A window on all of a text gives all that is left of it. -/
theorem Whole.span {w : Window σ} (h : w.Whole text) (pool : Pool) :
    w.span pool = (.ok (text.drop w.cursor), w, pool) := by
  have hfind : w.rest? =
      if w.cursor < text.length then some (text.drop w.cursor) else none := by
    unfold rest?
    rw [h.segments]
    simp only [List.reverse_cons, List.reverse_nil, List.nil_append, List.find?, Segment.holds,
      Segment.stop, Nat.zero_add, Nat.zero_le, decide_true, Bool.true_and]
    by_cases hc : w.cursor < text.length
    · simp [hc]
    · simp [hc]
  by_cases hc : w.cursor < text.length
  · rw [if_pos hc] at hfind
    rw [Window.span, hfind]
  · rw [if_neg hc] at hfind
    have hfill : w.fill pool = (.ok false, w, pool) := by
      unfold fill
      rw [h.supply]
    have hd : text.drop w.cursor = [] := List.drop_eq_nil_iff.2 (Nat.le_of_not_lt hc)
    rw [hd]
    exact span_of_fill hfind hfill

variable [SteadySource σ]

/-- How reads fail behind the text that the window shows; none, if its end is reported. -/
def EndsWith (ending : Option String) (w : Window σ) : Prop :=
  match w.supply with
  | .fixed => ending = none
  | .streaming source _ ended =>
    if ended then ending = none else SteadySource.ending source = ending

/-- The window shows a text and then ends so. -/
structure Tells (text : List Char) (ending : Option String) (w : Window σ) : Prop extends
    Shows text w where
  endsWith : w.EndsWith ending

theorem tells_streaming (source : σ) (size : Nat) :
    (streaming source size).Tells (FaithfulSource.rest source) (SteadySource.ending source) :=
  ⟨shows_streaming source size, rfl⟩

theorem tells_fixed (text : List Char) : (fixed text : Window σ).Tells text none :=
  ⟨shows_fixed text, rfl⟩

theorem Whole.tells {w : Window σ} (h : w.Whole text) : w.Tells text none := by
  have hstop := h.residentStop
  have hstart := h.residentStart
  refine ⟨⟨?_, ?_, ?_, Nat.le_of_eq hstop, fun hn => ?_, fun s hs => ?_, ?_⟩, ?_⟩
  · rw [hstart, hstop, h.segments]
    exact ⟨rfl, List.prefix_rfl, Nat.zero_add _⟩
  · rw [hstart]
    exact Nat.zero_le _
  · rw [hstop]
    exact h.cursor_le
  · rw [h.segments] at hn
    cases hn
  · rw [h.segments] at hs
    cases hs
  · rw [Supplied, h.supply]
    exact hstop
  · rw [EndsWith, h.supply]

/-- Windows of a kind stay of that kind while they are read and follow the loops. Unless the level is that
of a template, no piece that they give of a text ends between a backslash and the end of a left delimiter
behind it. -/
structure Cuts (left : List Char) (level : Nat) (text : List Char) (P : Window σ → Prop) : Prop where
  span : ∀ {w : Window σ} {pool : Pool}, P w → w.Shows text → P (w.span pool).2.1
  withCursor : ∀ {w : Window σ} {cursor : Nat}, P w → cursor ≤ w.residentStop → P { w with cursor }
  follow : ∀ {w : Window σ} (kind : Token.Kind) (action : Action) (pool : Pool), P w →
    P (Rendering.follow w kind action pool).1
  spared : level ≠ 0 → ∀ {w : Window σ} {pool : Pool} {cs : List Char}, P w → w.Shows text →
    (w.span pool).1 = .ok cs → cs ≠ [] → Spared left text (w.cursor + cs.length)

theorem cuts_template (left text : List Char) : Cuts left 0 text fun _ : Window σ => True where
  span _ _ := trivial
  withCursor _ _ := trivial
  follow _ _ _ _ := trivial
  spared h := absurd rfl h

/-- A window on all of a text does not cut it. -/
theorem cuts_whole (left : List Char) (level : Nat) (text : List Char) :
    Cuts left level text (Whole text : Window σ → Prop) where
  span h _ := by
    rw [h.span]
    exact h
  withCursor h hc := ⟨h.supply, h.segments, h.residentStop ▸ hc⟩
  follow kind action pool h := Rendering.follow_whole h kind action pool
  spared _ w pool cs h _ hs _ := by
    rw [h.span] at hs
    cases hs
    have hend : w.cursor + (text.drop w.cursor).length = text.length := by
      have := h.cursor_le
      rw [List.length_drop]
      omega
    rw [hend]
    exact spared_length left text

/-- The ending only depends on the source. -/
theorem Tells.of_supply_eq {w w' : Window σ} (h : w.Tells text ending) (hs : w'.supply = w.supply)
    (hw : w'.Shows text) : w'.Tells text ending := by
  refine ⟨hw, ?_⟩
  have := h.endsWith
  unfold EndsWith at this ⊢
  rw [hs]
  exact this

/-- Where reading on ends or fails, so does the text. -/
theorem Tells.fill {w w' : Window σ} (h : w.Tells text ending) (hc : w.cursor = w.residentStop)
    {pool pool' : Pool} {result : Except RenderError Bool}
    (hf : w.fill pool = (result, w', pool')) :
    (∀ more, result = .ok more → w'.EndsWith ending) ∧ (result = .ok false → ending = none) ∧
      ∀ e, result = .error e →
        ∃ message, e = .io message ∧ ending = some message ∧ w.cursor = text.length := by
  have hends := h.endsWith
  rcases fill_cases hf with ⟨hs, rfl, rfl⟩ | ⟨source, size, hs, rfl, rfl⟩ |
    ⟨source, size, before, last, answer, source', hs, hm, hr, hcase⟩
  · refine ⟨fun _ _ => hends, fun _ => ?_, nofun⟩
    rw [EndsWith, hs] at hends
    exact hends
  · refine ⟨fun _ _ => hends, fun _ => ?_, nofun⟩
    rw [EndsWith, hs] at hends
    exact hends
  · obtain ⟨_, _, hsize, hlt⟩ := h.toShows.makeRoom hc hs hm
    have hpos : 0 < last.buffer.size - last.text.length := by omega
    rw [EndsWith, hs] at hends
    have hending : SteadySource.ending source = ending := hends
    rcases hcase with ⟨e, rfl, rfl, rfl⟩ | ⟨rfl, rfl, rfl⟩ | ⟨c, cs, rfl, rfl, rfl⟩
    · refine ⟨nofun, nofun, fun e' he => ?_⟩
      cases he
      refine ⟨e, rfl, hending.symm.trans (SteadySource.ending_of_failure hr hpos), ?_⟩
      obtain ⟨hrest, _⟩ := (supplied_iff hs).1 h.supplied
      rw [SteadySource.rest_of_failure hr hpos] at hrest
      have := List.drop_eq_nil_iff.1 hrest.symm
      have := h.stop_le
      omega
    · have hnone := hending.symm.trans (SteadySource.ending_of_end hr hpos)
      exact ⟨fun _ _ => hnone, fun _ => hnone, nofun⟩
    · exact ⟨fun _ _ => (SteadySource.ending_of_ok hr hpos).trans hending, nofun, nofun⟩

/-- So it is where no characters are given. -/
theorem Tells.span {w w' : Window σ} (h : w.Tells text ending) {pool pool' : Pool}
    {result : Except RenderError (List Char)} (hs : w.span pool = (result, w', pool')) :
    (∀ cs, result = .ok cs → w'.Tells text ending) ∧ (result = .ok [] → ending = none) ∧
      ∀ e, result = .error e →
        ∃ message, e = .io message ∧ ending = some message ∧ w.cursor = text.length := by
  fun_induction Window.span w pool with
  | case1 w pool cs hr =>
    cases hs
    obtain ⟨hn, _, _⟩ := h.of_rest?_eq_some hr
    refine ⟨fun _ _ => h, fun he => ?_, fun e he => ?_⟩
    · injection he with he
      exact absurd he hn
    · cases he
  | case2 w pool hr w₁ pool₁ hf ih =>
    have hc := h.of_rest?_eq_none hr
    have hread := (h.toShows.fill hc hf).1
    have hends := (h.fill hc hf).1 true rfl
    have hspan := ih ⟨hread.shows, hends⟩ hs
    rw [hread.cursor] at hspan
    exact hspan
  | case3 w pool hr w₁ pool₁ hf =>
    cases hs
    have hc := h.of_rest?_eq_none hr
    have hread := (h.toShows.fill hc hf).1
    have hends := h.fill hc hf
    exact ⟨fun _ _ => ⟨hread.shows, hends.1 false rfl⟩, fun _ => hends.2.1 rfl,
      fun e he => by cases he⟩
  | case4 w pool hr e w₁ pool₁ hf =>
    cases hs
    have hends := h.fill (h.of_rest?_eq_none hr) hf
    refine ⟨fun cs he => ?_, fun he => ?_, fun e' he => ?_⟩
    · cases he
    · cases he
    · cases he
      exact hends.2.2 e rfl

end Window

/-! ### Sinks without a limit -/

/-- A sink after a text was written to it that is withheld or not. -/
def Sink.put (sink : Sink) (withheld : Bool) (text : List Char) : Sink :=
  if withheld then sink else (sink.write text).2

namespace Sink
variable {sink : Sink}

theorem room_put (h : sink.room = none) (withheld : Bool) (text : List Char) :
    (sink.put withheld text).room = none := by
  unfold put
  split
  · exact h
  · exact room_write_eq_none h text

theorem put_nil (h : sink.room = none) (withheld : Bool) : sink.put withheld [] = sink := by
  unfold put
  split
  · rfl
  · rw [write_of_room_eq_none h, String.ofList_nil, String.append_empty]

/-- Of a text it does not matter in how many pieces it is written. -/
theorem put_put (h : sink.room = none) (withheld : Bool) (text more : List Char) :
    (sink.put withheld text).put withheld more = sink.put withheld (text ++ more) := by
  cases withheld with
  | true => rfl
  | false =>
    have h' := room_write_eq_none h text
    show ((sink.write text).2.write more).2 = (sink.write (text ++ more)).2
    rw [write_of_room_eq_none h', write_of_room_eq_none h, write_of_room_eq_none h,
      String.ofList_append, String.append_assoc]

end Sink

/-! ### What scans find in a text -/

/-- What comes of going on in a text. -/
structure Passed (α : Type) where
  result : Except RenderError α
  cursor : Nat
  /-- The literal text that was passed over. -/
  literal : List Char := []

namespace TextScan
variable {text : List Char} {ending : Option String} {cursor : Nat}

/-- Look for the next left delimiter from a place in a text. What may be the beginning of one is not
literal text before it is known what follows. -/
def pass (scan : TextScan) (text : List Char) (ending : Option String) (cursor : Nat) :
    Passed Bool :=
  let scanned := scan.scan (text.drop cursor)
  if scanned.found then ⟨.ok true, cursor + scanned.consumed, (scanned.scan.take 0).1⟩
  else
    match ending with
    | none => ⟨.ok false, text.length, (scanned.scan.take 0).1⟩
    | some message =>
      ⟨.error (.io message), text.length, (scanned.scan.take scanned.scan.left.matched).1⟩

theorem pass_of_found {scan : TextScan} {piece : List Char} (hp : piece <+: text.drop cursor)
    (hf : (scan.scan piece).found = true) :
    scan.pass text ending cursor =
      ⟨.ok true, cursor + (scan.scan piece).consumed, ((scan.scan piece).scan.take 0).1⟩ := by
  obtain ⟨rest, hr⟩ := hp
  have hscan : scan.scan (piece ++ rest) = scan.scan piece := scanWith_append_of_found hf rest
  unfold pass
  rw [← hr, hscan]
  dsimp only
  rw [if_pos hf]

theorem pass_of_end (scan : TextScan) (text : List Char) (ending : Option String) :
    scan.pass text ending text.length =
      match ending with
      | none => ⟨.ok false, text.length, (scan.take 0).1⟩
      | some message => ⟨.error (.io message), text.length, (scan.take scan.left.matched).1⟩ := by
  unfold pass
  rw [List.drop_length]
  rfl

/-- Where the end is reported nothing fails. -/
theorem pass_ne_error (scan : TextScan) (text : List Char) (cursor : Nat) {e : RenderError} :
    (scan.pass text none cursor).result ≠ .error e := by
  unfold pass
  dsimp only
  split
  · nofun
  · nofun

theorem take_above {scan : TextScan} {keep : Nat} (h : keep ≤ scan.held.length) (old : List Char) :
    ((scan.above old).take keep).1 = old.reverse ++ (scan.take keep).1 := by
  show ((scan.held ++ old).drop keep).reverse = _
  rw [List.drop_append_of_le_length h, List.reverse_append]
  rfl

/-- Literal text can be taken away before a scan goes on, where no backslash counts or none is taken
away from a delimiter. -/
theorem pass_of_not_found {scan : TextScan} {piece : List Char} (hp : piece <+: text.drop cursor)
    (hf : (scan.scan piece).found = false)
    (hs : scan.Flushable ∨ ∃ left, scan.Recalls left (text.take cursor) ∧
      Spared left text (text.take cursor ++ piece).length) :
    let taken := (scan.scan piece).scan.take (scan.scan piece).scan.left.matched
    scan.pass text ending cursor =
      { taken.2.pass text ending (cursor + piece.length) with
        literal := taken.1 ++ (taken.2.pass text ending (cursor + piece.length)).literal } := by
  intro taken
  obtain ⟨rest, hr⟩ := hp
  have hdrop : text.drop (cursor + piece.length) = rest := by
    rw [← List.drop_drop, ← hr, List.drop_left]
  have happend : scan.scan (piece ++ rest) =
      { (scan.scan piece).scan.scan rest with
        consumed := piece.length + ((scan.scan piece).scan.scan rest).consumed } :=
    scanWith_append hf rest
  have hliteral : taken.1 = ((scan.scan piece).scan.held.drop
      (scan.scan piece).scan.left.matched).reverse := rfl
  -- Either way the scan goes on as if the literal text were still there.
  have hgoes : (scan.scan piece).scan = taken.2.above ((scan.scan piece).scan.held.drop
        (scan.scan piece).scan.left.matched) ∧
      (taken.2.above ((scan.scan piece).scan.held.drop (scan.scan piece).scan.left.matched)).scan rest =
        { taken.2.scan rest with
          scan := (taken.2.scan rest).scan.above ((scan.scan piece).scan.held.drop
            (scan.scan piece).scan.left.matched) } ∧
      (taken.2.scan rest).scan.left.matched ≤ (taken.2.scan rest).scan.held.length := by
    rcases hs with hs | ⟨left, hrecalls, hspared⟩
    · obtain ⟨htaken, habove⟩ := (hs.scan [] piece).2.take
      obtain ⟨hscan, hrest⟩ := htaken.scan ((scan.scan piece).scan.held.drop
        (scan.scan piece).scan.left.matched) rest
      exact ⟨habove, hscan, hrest.matched_le⟩
    · have hrecalls := hrecalls.scan hf
      have htext : text = text.take cursor ++ piece ++ rest := by
        rw [List.append_assoc, hr, List.take_append_drop]
      exact ⟨hrecalls.take.2, hrecalls.resumed.scan hspared htext⟩
  generalize ((scan.scan piece).scan.held.drop (scan.scan piece).scan.left.matched) = old at *
  obtain ⟨habove, hscan, hmatched⟩ := hgoes
  rw [habove, hscan] at happend
  have hzero : ∀ keep, keep ≤ (taken.2.scan rest).scan.held.length →
      (((taken.2.scan rest).scan.above old).take keep).1 =
        taken.1 ++ ((taken.2.scan rest).scan.take keep).1 := by
    intro keep hk
    rw [take_above hk, hliteral]
  unfold pass
  rw [← hr, happend, hdrop]
  dsimp only
  by_cases hfound : (taken.2.scan rest).found = true
  · rw [if_pos hfound, if_pos hfound, hzero 0 (Nat.zero_le _), Nat.add_assoc]
  · rw [if_neg hfound, if_neg hfound]
    cases ending with
    | none => rw [hzero 0 (Nat.zero_le _)]
    | some message =>
      have hm : ((taken.2.scan rest).scan.above old).left.matched =
          (taken.2.scan rest).scan.left.matched := rfl
      rw [hm, hzero _ hmatched]

end TextScan

namespace CloseScan
variable {text : List Char} {ending : Option String} {cursor : Nat}

/-- Look for the end of a token from a place in a text. -/
def pass (scan : CloseScan) (text : List Char) (ending : Option String) (cursor : Nat) :
    Passed (Option (List Char)) :=
  let scanned := scan.scan (text.drop cursor)
  if scanned.found then ⟨.ok (some scanned.scan.text), cursor + scanned.consumed, []⟩
  else
    match ending with
    | none => ⟨.ok none, text.length, []⟩
    | some message => ⟨.error (.io message), text.length, []⟩

theorem pass_of_found {scan : CloseScan} {piece : List Char} (hp : piece <+: text.drop cursor)
    (hf : (scan.scan piece).found = true) :
    scan.pass text ending cursor =
      ⟨.ok (some (scan.scan piece).scan.text), cursor + (scan.scan piece).consumed, []⟩ := by
  obtain ⟨rest, hr⟩ := hp
  have hscan : scan.scan (piece ++ rest) = scan.scan piece := scanWith_append_of_found hf rest
  unfold pass
  rw [← hr, hscan]
  dsimp only
  rw [if_pos hf]

theorem pass_ne_error (scan : CloseScan) (text : List Char) (cursor : Nat) {e : RenderError} :
    (scan.pass text none cursor).result ≠ .error e := by
  unfold pass
  dsimp only
  split
  · nofun
  · nofun

theorem pass_of_end (scan : CloseScan) (text : List Char) (ending : Option String) :
    scan.pass text ending text.length =
      match ending with
      | none => ⟨.ok none, text.length, []⟩
      | some message => ⟨.error (.io message), text.length, []⟩ := by
  unfold pass
  rw [List.drop_length]
  rfl

theorem pass_of_not_found {scan : CloseScan} {piece : List Char} (hp : piece <+: text.drop cursor)
    (hf : (scan.scan piece).found = false) :
    scan.pass text ending cursor =
      (scan.scan piece).scan.pass text ending (cursor + piece.length) := by
  obtain ⟨rest, hr⟩ := hp
  have hdrop : text.drop (cursor + piece.length) = rest := by
    rw [← List.drop_drop, ← hr, List.drop_left]
  have happend : scan.scan (piece ++ rest) =
      { (scan.scan piece).scan.scan rest with
        consumed := piece.length + ((scan.scan piece).scan.scan rest).consumed } :=
    scanWith_append hf rest
  unfold pass
  rw [← hr, happend, hdrop]
  dsimp only
  rw [Nat.add_assoc]

end CloseScan

/-- What lies ahead of a place in a text: a token, the end, or a failure. -/
def Host.look {κ : Type} (host : Host κ) (level : Nat) (within : Option Nat) (text : List Char)
    (ending : Option String) (cursor : Nat) : Passed (Option (List Char)) :=
  let passed := (Rendering.textScan host level).pass text ending cursor
  match passed.result with
  | .error e => { passed with result := .error e }
  | .ok false => { passed with result := .ok none }
  | .ok true =>
    let read := (CloseScan.start host.left host.right).pass text ending passed.cursor
    let offset := passed.cursor - host.left.length
    match read.result with
    | .error e => ⟨.error e, read.cursor, passed.literal⟩
    | .ok none => ⟨.error (.unterminatedToken offset within), read.cursor, passed.literal⟩
    | .ok (some raw) => ⟨.ok (some raw), read.cursor, passed.literal⟩

/-! ### What renderings come upon -/

namespace Rendering
variable {κ σ : Type} {text : List Char} {ending : Option String}

theorem writeLiteral_of_room {r : Rendering κ σ} (h : r.sink.room = none) (cs : List Char) :
    r.writeLiteral cs =
      (.ok (), { r with sink := r.sink.put r.state.frames.suppressed cs }) := by
  unfold writeLiteral Sink.put
  split
  · rfl
  · unfold Rendering.write
    rw [Sink.write_of_room_eq_none h]

variable [CharSource σ] [SteadySource σ]

variable {left : List Char} {level : Nat} {P : Window σ → Prop}

/-- The characters that a rendering is given at its cursor. -/
theorem span_cases {r r' : Rendering κ σ} {result : Except RenderError (List Char)}
    (hcuts : Window.Cuts left level text P) (hkind : P r.passage.window)
    (h : r.passage.window.Tells text ending) (hs : r.span = (result, r')) :
    ∃ window pool, r' = { r.withWindow window with pool } ∧
      window.cursor = r.passage.window.cursor ∧ P window ∧
      ((∃ e, result = .error (.io e) ∧ ending = some e ∧ window.cursor = text.length) ∨
        (result = .ok [] ∧ ending = none ∧ window.cursor = text.length ∧
          window.Tells text ending) ∨
        ∃ c cs, result = .ok (c :: cs) ∧ c :: cs <+: text.drop window.cursor ∧
          window.cursor + (c :: cs).length ≤ window.residentStop ∧ window.Tells text ending ∧
          (level ≠ 0 → Spared left text (window.cursor + (c :: cs).length))) := by
  obtain ⟨window, pool, hw, rfl⟩ := of_span hs
  obtain ⟨hread, hcs⟩ := h.toShows.span hw
  obtain ⟨htells, hend, hio⟩ := h.span hw
  have hkind' : P (r.passage.window.span r.pool).2.1 := hcuts.span hkind h.toShows
  rw [hw] at hkind'
  refine ⟨window, pool, rfl, hread.cursor, hkind', ?_⟩
  rw [hread.cursor]
  cases result with
  | error e =>
    obtain ⟨message, rfl, he, hc⟩ := hio e rfl
    exact .inl ⟨message, rfl, he, hc⟩
  | ok cs =>
    obtain ⟨hp, hle, hc⟩ := hcs cs rfl
    cases cs with
    | nil => exact .inr (.inl ⟨rfl, hend rfl, hc rfl, htells [] rfl⟩)
    | cons c cs =>
      refine .inr (.inr ⟨c, cs, rfl, hp, hle, htells _ rfl, fun hl => ?_⟩)
      exact hcuts.spared hl hkind h.toShows (congrArg Prod.fst hw) (List.cons_ne_nil c cs)

/-- A window still tells its text after characters at hand were passed over. -/
theorem tells_advance {w : Window σ} (h : w.Tells text ending) {count : Nat}
    (hc : w.cursor + count ≤ w.residentStop) : (w.advance count).Tells text ending :=
  h.of_supply_eq rfl (h.toShows.advance hc)

/-- Passing over literal text comes to what is next in the text, in whatever pieces it is given. -/
theorem passText_eq {scan : TextScan} {r r' : Rendering κ σ} {result : Except RenderError Bool}
    (hcuts : Window.Cuts left level text P) (hkind : P r.passage.window)
    (h : r.passage.window.Tells text ending) (hroom : r.sink.room = none)
    (hheld : scan.held.length ≤ scan.left.matched)
    (hrecalls : scan.Recalls left (text.take r.passage.window.cursor))
    (hplain : level = 0 → scan.escapes = false) (hp : r.passText scan = (result, r')) :
    result = (scan.pass text ending r.passage.window.cursor).result ∧
      r'.sink = r.sink.put r.state.frames.suppressed
        (scan.pass text ending r.passage.window.cursor).literal ∧
      ∀ found, result = .ok found → r'.passage.window.Tells text ending ∧
        r'.passage.window.cursor = (scan.pass text ending r.passage.window.cursor).cursor ∧
        P r'.passage.window := by
  fun_induction Rendering.passText scan r with
  | case1 scan r e r₁ hspan =>
    cases hp
    obtain ⟨w, pool, rfl, hcursor, _, ⟨message, he, hend, hc⟩ | ⟨he, _⟩ | ⟨c, cs, he, _⟩⟩ :=
      span_cases hcuts hkind h hspan
    · cases he
      rw [← hcursor, hc, TextScan.pass_of_end, hend]
      have hnone : (scan.take scan.left.matched).1 = [] := by
        show (scan.held.drop scan.left.matched).reverse = []
        rw [List.drop_eq_nil_iff.2 hheld, List.reverse_nil]
      refine ⟨rfl, ?_, fun found hf => by cases hf⟩
      dsimp only
      rw [hnone, Sink.put_nil hroom]
      rfl
    · cases he
    · cases he
  | case2 scan r r₁ hspan e r₂ hw =>
    obtain ⟨w, pool, rfl, _⟩ := span_cases hcuts hkind h hspan
    rw [writeLiteral_of_room (by exact hroom)] at hw
    cases hw
  | case3 scan r r₁ hspan r₂ hw =>
    cases hp
    obtain ⟨w, pool, rfl, hcursor, hkind', ⟨_, he, _⟩ | ⟨_, hend, hc, htells⟩ | ⟨c, cs, he, _⟩⟩ :=
      span_cases hcuts hkind h hspan
    · cases he
    · rw [writeLiteral_of_room (by exact hroom)] at hw
      cases hw
      rw [← hcursor, hc, TextScan.pass_of_end, hend]
      exact ⟨rfl, rfl, fun _ _ => ⟨hend ▸ htells, hc, hkind'⟩⟩
    · cases he
  | case4 scan r c cs r₁ hspan scanned r₂ hfound e r₃ hw =>
    obtain ⟨w, pool, rfl, _⟩ := span_cases hcuts hkind h hspan
    rw [writeLiteral_of_room (by exact hroom)] at hw
    cases hw
  | case5 scan r c cs r₁ hspan scanned r₂ hfound r₃ hw =>
    cases hp
    obtain ⟨w, pool, rfl, hcursor, hkind',
      ⟨_, he, _⟩ | ⟨he, _⟩ | ⟨c, cs, he, hpre, hle, htells, _⟩⟩ := span_cases hcuts hkind h hspan
    · cases he
    · cases he
    · cases he
      rw [writeLiteral_of_room (by exact hroom)] at hw
      cases hw
      have hused : scanned.consumed ≤ (c :: cs).length := consumed_le_length scan (c :: cs)
      have hplace := Nat.le_trans (Nat.add_le_add_left hused w.cursor) hle
      rw [← hcursor, TextScan.pass_of_found hpre hfound]
      exact ⟨rfl, rfl, fun _ _ => ⟨tells_advance htells hplace, rfl, hcuts.withCursor hkind' hplace⟩⟩
  | case6 scan r c cs r₁ hspan scanned r₂ hfound taken e r₃ hw =>
    obtain ⟨w, pool, rfl, _⟩ := span_cases hcuts hkind h hspan
    rw [writeLiteral_of_room (by exact hroom)] at hw
    cases hw
  | case7 scan r c cs r₁ hspan scanned r₂ hfound taken r₃ hw ih =>
    obtain ⟨w, pool, rfl, hcursor, hkind',
      ⟨_, he, _⟩ | ⟨he, _⟩ | ⟨c, cs, he, hpre, hle, htells, hspared⟩⟩ :=
      span_cases hcuts hkind h hspan
    · cases he
    · cases he
    · cases he
      rw [writeLiteral_of_room (by exact hroom)] at hw
      cases hw
      have hfound : scanned.found = false := Bool.eq_false_iff.2 hfound
      have hused : scanned.consumed = (c :: cs).length := consumed_of_not_found scan (c :: cs) hfound
      rw [← hcursor] at hrecalls
      have hfed : text.take w.cursor ++ (c :: cs) = text.take (w.cursor + (c :: cs).length) := by
        rw [take_add_of_isPrefix hpre (Nat.le_refl _), List.take_length]
      have hlength : (text.take w.cursor ++ (c :: cs)).length = w.cursor + (c :: cs).length := by
        have hle := Nat.le_trans htells.le_stop htells.stop_le
        rw [List.length_append, List.length_take_of_le hle]
      have hscan : scan.Flushable ∨ ∃ left, scan.Recalls left (text.take w.cursor) ∧
          Spared left text (text.take w.cursor ++ (c :: cs)).length := by
        by_cases hl : level = 0
        · exact .inl ⟨hplain hl, hrecalls.matched_le⟩
        · exact .inr ⟨left, hrecalls, hlength ▸ hspared hl⟩
      have hpass : scan.pass text ending w.cursor = _ := TextScan.pass_of_not_found hpre hfound hscan
      have hrecalls' := (hrecalls.scan hfound).take.1
      rw [hfed, ← hused] at hrecalls'
      have hplain' : level = 0 → taken.2.escapes = false := fun hl =>
        ((TextScan.Flushable.mk (hplain hl) hrecalls.matched_le).scan [] (c :: cs)).2.take.1.plain
      rw [← hused] at hle
      have hroom' := Sink.room_put hroom r.state.frames.suppressed taken.1
      obtain ⟨hresult, hsink, hrest⟩ := ih (hcuts.withCursor hkind' hle) (tells_advance htells hle)
        hroom' (List.length_take_le ..) hrecalls' hplain' hp
      have hcursor' : (w.advance scanned.consumed).cursor = w.cursor + (c :: cs).length := by
        rw [← hused]
        rfl
      rw [← hcursor, hpass]
      refine ⟨?_, ?_, fun found he => ?_⟩
      · rw [hresult]
        exact congrArg (fun n => (taken.2.pass text ending n).result) hcursor'
      · rw [hsink]
        show (r.sink.put _ taken.1).put _ (taken.2.pass text ending _).literal = _
        rw [Sink.put_put hroom]
        exact congrArg (fun n => r.sink.put r.state.frames.suppressed
          (taken.1 ++ (taken.2.pass text ending n).literal)) hcursor'
      · obtain ⟨ht, hc, hkind⟩ := hrest found he
        refine ⟨ht, ?_, hkind⟩
        rw [hc]
        exact congrArg (fun n => (taken.2.pass text ending n).cursor) hcursor'

/-- Reading a token comes to its end in the text. -/
theorem readToken_eq {scan : CloseScan} {r r' : Rendering κ σ}
    {result : Except RenderError (Option (List Char))} (hcuts : Window.Cuts left level text P)
    (hkind : P r.passage.window) (h : r.passage.window.Tells text ending)
    (hp : r.readToken scan = (result, r')) :
    result = (scan.pass text ending r.passage.window.cursor).result ∧ r'.sink = r.sink ∧
      ∀ raw, result = .ok raw → r'.passage.window.Tells text ending ∧
        r'.passage.window.cursor = (scan.pass text ending r.passage.window.cursor).cursor ∧
        P r'.passage.window := by
  fun_induction Rendering.readToken scan r with
  | case1 scan r e r₁ hspan =>
    cases hp
    obtain ⟨w, pool, rfl, hcursor, _, ⟨message, he, hend, hc⟩ | ⟨he, _⟩ | ⟨c, cs, he, _⟩⟩ :=
      span_cases hcuts hkind h hspan
    · cases he
      rw [← hcursor, hc, CloseScan.pass_of_end, hend]
      exact ⟨rfl, rfl, fun raw hr => by cases hr⟩
    · cases he
    · cases he
  | case2 scan r r₁ hspan =>
    cases hp
    obtain ⟨w, pool, rfl, hcursor, hkind', ⟨_, he, _⟩ | ⟨_, hend, hc, htells⟩ | ⟨c, cs, he, _⟩⟩ :=
      span_cases hcuts hkind h hspan
    · cases he
    · rw [← hcursor, hc, CloseScan.pass_of_end, hend]
      exact ⟨rfl, rfl, fun _ _ => ⟨hend ▸ htells, hc, hkind'⟩⟩
    · cases he
  | case3 scan r c cs r₁ hspan scanned r₂ hfound =>
    obtain ⟨rfl, rfl⟩ := Prod.mk.inj hp
    obtain ⟨w, pool, rfl, hcursor, hkind',
      ⟨_, he, _⟩ | ⟨he, _⟩ | ⟨c, cs, he, hpre, hle, htells, _⟩⟩ := span_cases hcuts hkind h hspan
    · cases he
    · cases he
    · cases he
      have hused : scanned.consumed ≤ (c :: cs).length := consumed_le_length scan (c :: cs)
      have hplace := Nat.le_trans (Nat.add_le_add_left hused w.cursor) hle
      rw [← hcursor, CloseScan.pass_of_found hpre hfound]
      exact ⟨rfl, rfl, fun _ _ => ⟨tells_advance htells hplace, rfl, hcuts.withCursor hkind' hplace⟩⟩
  | case4 scan r c cs r₁ hspan scanned r₂ hfound ih =>
    obtain ⟨w, pool, rfl, hcursor, hkind',
      ⟨_, he, _⟩ | ⟨he, _⟩ | ⟨c, cs, he, hpre, hle, htells, _⟩⟩ := span_cases hcuts hkind h hspan
    · cases he
    · cases he
    · cases he
      have hfound : scanned.found = false := Bool.eq_false_iff.2 hfound
      have hused : scanned.consumed = (c :: cs).length := consumed_of_not_found scan (c :: cs) hfound
      rw [← hused] at hle
      obtain ⟨hresult, hsink, hrest⟩ :=
        ih (hcuts.withCursor hkind' hle) (tells_advance htells hle) hp
      have hcursor' : r₂.passage.window.cursor = w.cursor + (c :: cs).length := by
        rw [← hused]
        rfl
      rw [hcursor'] at hresult hrest
      rw [← hcursor, CloseScan.pass_of_not_found hpre hfound]
      exact ⟨hresult, hsink, hrest⟩

/-- What a rendering comes upon if `sight` lies ahead of it: it is there then, in a window of the same
kind, and has written the literal text in between. -/
inductive Sees (P : Window σ → Prop) (text : List Char) (ending : Option String)
    (sight : Passed (Option (List Char))) (r : Rendering κ σ) : Encounter κ σ → Prop
  | token {raw : List Char} {r' : Rendering κ σ} (hs : sight.result = .ok (some raw))
      (hr : r.GoesOnTo text r') (ht : r'.passage.window.Tells text ending)
      (hc : r'.passage.window.cursor = sight.cursor)
      (hk : r'.sink = r.sink.put r.state.frames.suppressed sight.literal)
      (hw : P r'.passage.window) : Sees P text ending sight r (.token raw r')
  | ending {r' : Rendering κ σ} (hs : sight.result = .ok none)
      (hr : r.GoesOnTo text r') (ht : r'.passage.window.Tells text ending)
      (hc : r'.passage.window.cursor = sight.cursor)
      (hk : r'.sink = r.sink.put r.state.frames.suppressed sight.literal)
      (hw : P r'.passage.window) : Sees P text ending sight r (.ending r')
  | failure {e : RenderError} {r' : Rendering κ σ} (hs : sight.result = .error e)
      (hr : r.GoesOnTo text r')
      (hk : r'.sink = r.sink.put r.state.frames.suppressed sight.literal)
      (hc : ending = none → r'.passage.window.cursor = sight.cursor) :
      Sees P text ending sight r (.failure e r')

/-- What lies ahead in the text is what a rendering comes upon, if its passage is the template or no
delimiter with a backslash is cut. -/
theorem sees_meet {r : Rendering κ σ} (host : Host κ)
    (hcuts : Window.Cuts host.left r.passage.level text P) (hkind : P r.passage.window)
    (h : r.passage.window.Tells text ending) (hroom : r.sink.room = none) :
    r.Sees P text ending
      (host.look r.passage.level r.passage.within text ending r.passage.window.cursor)
      (r.meet host) := by
  have hfresh : ∀ level, (textScan host level).held.length ≤ (textScan host level).left.matched := by
    intro level
    unfold textScan
    split
    · exact Nat.le_refl _
    · exact Nat.le_refl _
  have hplain : r.passage.level = 0 → (textScan host r.passage.level).escapes = false := by
    intro hl
    rw [textScan, if_pos hl]
    rfl
  have hrecalls : (textScan host r.passage.level).Recalls host.left
      (text.take r.passage.window.cursor) := by
    unfold textScan
    split
    · exact TextScan.recalls_plain ..
    · exact TextScan.recalls_escaping ..
  unfold meet Host.look
  cases hp : r.passText (textScan host r.passage.level) with
  | mk result r₁ =>
    obtain ⟨hgoes, _, hleft⟩ := goesOnTo_passText h.toShows hrecalls.follows hp
    obtain ⟨hresult, hsink, hrest⟩ := passText_eq hcuts hkind h hroom (hfresh _) hrecalls hplain hp
    dsimp only
    rw [← hresult]
    cases result with
    | error e =>
      refine .failure rfl hgoes hsink fun hend => ?_
      rw [hend] at hresult
      cases TextScan.pass_ne_error _ _ _ hresult.symm
    | ok found =>
      obtain ⟨ht, hc, hkind₁⟩ := hrest found rfl
      cases found with
      | false => exact .ending rfl hgoes ht hc hsink hkind₁
      | true =>
        obtain ⟨front, hfront⟩ := hleft rfl
        dsimp only
        cases hr : r₁.readToken (.start host.left host.right) with
        | mk result r₂ =>
          obtain ⟨hgoes', _⟩ := goesOnTo_readToken (front ++ host.left) [] hgoes.window.shows
            (by rw [List.append_nil, hfront]) (CloseScan.follows_start ..) hr
          obtain ⟨hresult, hsink', hrest⟩ := readToken_eq hcuts hkind₁ ht hr
          have hgoes := hgoes.trans hgoes'
          rw [← hsink'] at hsink
          rw [← hc, ← hresult]
          cases result with
          | error e =>
            refine .failure rfl hgoes hsink fun hend => ?_
            rw [hend] at hresult
            cases CloseScan.pass_ne_error _ _ _ hresult.symm
          | ok raw =>
            obtain ⟨ht', hc', hkind₂⟩ := hrest raw rfl
            cases raw with
            | none =>
              have hwithin : r₂.passage.within = r.passage.within := by rw [hgoes.passage]
              dsimp only
              rw [hwithin]
              exact .failure rfl hgoes hsink fun _ => hc'
            | some raw => exact .token rfl hgoes ht' hc' hsink hkind₂

end Rendering

end Stencil
