import Stencil.Window
import Stencil.Proofs.Source

/-! What a window shows.

The segments of a window over a faithful source always lie side by side and hold the text of their
offsets (`Tiles`); all but the last are full, the cursor lies within them, and what is behind them is
still with the source. `Window.Shows` says all this, and every operation keeps it. From it follows
what a reader sees: characters from the cursor on, none only at the end of the text. -/
namespace Stencil

/-- A buffer that is taken is its size. -/
theorem Pool.checkOut_eq (pool : Pool) (size : Nat) :
    pool.checkOut size = (⟨size⟩, (pool.checkOut size).2) := by
  have h := pool.size_checkOut size
  revert h
  obtain ⟨⟨n⟩, pool'⟩ := pool.checkOut size
  rintro rfl
  rfl

/-! ### Segments side by side -/

/-- The segments hold the text from one offset to another, side by side and in order. -/
def Tiles (text : List Char) : (start : Nat) → List Segment → (stop : Nat) → Prop
  | start, [], stop => start = stop
  | start, s :: rest, stop =>
    s.start = start ∧ s.text <+: text.drop start ∧ Tiles text s.stop rest stop

namespace Tiles
variable {text : List Char}

theorem append_iff {start stop : Nat} {before after : List Segment} :
    Tiles text start (before ++ after) stop ↔
      ∃ middle, Tiles text start before middle ∧ Tiles text middle after stop := by
  induction before generalizing start with
  | nil => exact ⟨fun h => ⟨start, rfl, h⟩, fun ⟨_, hs, h⟩ => hs ▸ h⟩
  | cons s before ih =>
    simp only [List.cons_append, Tiles, ih]
    constructor
    · rintro ⟨hs, hp, middle, hb, ha⟩
      exact ⟨middle, ⟨hs, hp, hb⟩, ha⟩
    · rintro ⟨middle, ⟨hs, hp, hb⟩, ha⟩
      exact ⟨hs, hp, middle, hb, ha⟩

theorem concat_iff {start stop : Nat} {before : List Segment} {last : Segment} :
    Tiles text start (before ++ [last]) stop ↔
      Tiles text start before last.start ∧ last.text <+: text.drop last.start ∧
        last.stop = stop := by
  rw [append_iff]
  constructor
  · rintro ⟨middle, hb, rfl, hp, hs⟩
    exact ⟨hb, hp, hs⟩
  · rintro ⟨hb, hp, hs⟩
    exact ⟨last.start, hb, rfl, hp, hs⟩

theorem start_le {start stop : Nat} {segments : List Segment} (h : Tiles text start segments stop) :
    start ≤ stop := by
  induction segments generalizing start with
  | nil => exact Nat.le_of_eq h
  | cons s rest ih =>
    obtain ⟨rfl, _, hr⟩ := h
    exact Nat.le_trans (Nat.le_add_right ..) (ih hr)

/-- A character between the two offsets is held by a segment. -/
theorem exists_holds {start stop offset : Nat} {segments : List Segment}
    (h : Tiles text start segments stop) (hs : start ≤ offset) (ht : offset < stop) :
    ∃ s ∈ segments, s.holds offset = true := by
  induction segments generalizing start with
  | nil =>
    have : start = stop := h
    omega
  | cons s rest ih =>
    obtain ⟨rfl, _, hr⟩ := h
    by_cases hlt : offset < s.stop
    · exact ⟨s, List.mem_cons_self, by simp [Segment.holds, hs, hlt]⟩
    · obtain ⟨t, hm, ht⟩ := ih hr (by omega)
      exact ⟨t, List.mem_cons_of_mem _ hm, ht⟩

/-- Each segment holds the text of its offsets, which lie between the two. -/
theorem of_mem {start stop : Nat} {segments : List Segment} {s : Segment}
    (h : Tiles text start segments stop) (hm : s ∈ segments) :
    s.text <+: text.drop s.start ∧ start ≤ s.start ∧ s.stop ≤ stop := by
  induction segments generalizing start with
  | nil => cases hm
  | cons t rest ih =>
    obtain ⟨rfl, hp, hr⟩ := h
    rcases List.mem_cons.1 hm with rfl | hm
    · exact ⟨hp, Nat.le_refl _, hr.start_le⟩
    · obtain ⟨hp', hs, ht⟩ := ih hr hm
      exact ⟨hp', Nat.le_trans (Nat.le_add_right ..) hs, ht⟩

end Tiles

/-- What follows an offset within a segment is the text from there on. -/
theorem Segment.drop_isPrefix {text : List Char} {s : Segment} (h : s.text <+: text.drop s.start)
    {offset : Nat} (ho : s.start ≤ offset) :
    s.text.drop (offset - s.start) <+: text.drop offset := by
  obtain ⟨t, ht⟩ := h
  have hd : text.drop offset = (text.drop s.start).drop (offset - s.start) := by
    rw [List.drop_drop, show s.start + (offset - s.start) = offset by omega]
  rw [hd, ← ht, List.drop_append]
  exact List.prefix_append ..

namespace Window
variable {σ : Type} {text : List Char}

theorem residentStop_concat (w : Window σ) {before : List Segment} {last : Segment}
    (h : w.segments = before ++ [last]) : w.residentStop = last.stop := by
  rw [residentStop, h, List.getLast?_concat]

theorem residentStart_of_tiles {w : Window σ} {start stop : Nat} (h : Tiles text start w.segments stop)
    (hn : w.segments ≠ []) : w.residentStart = start := by
  cases hw : w.segments with
  | nil => exact absurd hw hn
  | cons s rest =>
    rw [hw] at h
    rw [residentStart, hw]
    exact h.1

/-! ### The invariant -/

variable [CharSource σ] [FaithfulSource σ]

/-- What is behind the segments is still with the source, and what is read next finds room. -/
def Supplied (text : List Char) (w : Window σ) : Prop :=
  match w.supply with
  | .fixed => w.residentStop = text.length
  | .streaming source size ended =>
    FaithfulSource.rest source = text.drop w.residentStop ∧
      (ended = true → FaithfulSource.rest source = []) ∧
      0 < size ∧ ∀ s ∈ w.segments, s.buffer.size = size ∧ s.text.length ≤ size

theorem supplied_iff {w : Window σ} {source : σ} {size : Nat} {ended : Bool}
    (hs : w.supply = .streaming source size ended) :
    w.Supplied text ↔ FaithfulSource.rest source = text.drop w.residentStop ∧
      (ended = true → FaithfulSource.rest source = []) ∧
      0 < size ∧ ∀ s ∈ w.segments, s.buffer.size = size ∧ s.text.length ≤ size := by
  unfold Supplied
  rw [hs]

/-- The window shows a text. -/
structure Shows (text : List Char) (w : Window σ) : Prop where
  /-- The segments lie side by side and hold the text of their offsets. -/
  tiled : Tiles text w.residentStart w.segments w.residentStop
  /-- The cursor is not in front of them. -/
  start_le : w.residentStart ≤ w.cursor
  /-- Nor is it behind them. -/
  le_stop : w.cursor ≤ w.residentStop
  /-- They do not go beyond the text. -/
  stop_le : w.residentStop ≤ text.length
  /-- Without segments nothing was read. -/
  fresh : w.segments = [] → w.cursor = 0
  /-- All but the last are full. -/
  full : ∀ s ∈ w.segments.dropLast, s.isFull = true
  /-- The source tells what is behind them. -/
  supplied : w.Supplied text

theorem shows_fixed (text : List Char) : (fixed text : Window σ).Shows text where
  tiled := ⟨rfl, List.prefix_rfl, rfl⟩
  start_le := Nat.le_refl _
  le_stop := Nat.zero_le _
  stop_le := by simp [fixed, residentStop, Segment.stop]
  fresh h := by cases h
  full s hs := by cases hs
  supplied := by simp [Supplied, fixed, residentStop, Segment.stop]

theorem shows_streaming (source : σ) (size : Nat) :
    (streaming source size).Shows (FaithfulSource.rest source) where
  tiled := rfl
  start_le := Nat.le_refl _
  le_stop := Nat.le_refl _
  stop_le := Nat.zero_le _
  fresh _ := rfl
  full s hs := by cases hs
  supplied := by
    refine ⟨rfl, nofun, ?_, nofun⟩
    show 0 < max size 1
    omega

/-! ### Moving the cursor -/

/-- Moving the cursor within the segments leaves their end where it is. -/
theorem Shows.residentStop_withCursor {w : Window σ} (h : w.Shows text) {offset : Nat}
    (hs : w.residentStart ≤ offset) (ht : offset ≤ w.residentStop) :
    ({ w with cursor := offset } : Window σ).residentStop = w.residentStop := by
  unfold residentStop at ht ⊢
  cases hl : w.segments.getLast? with
  | some s => rfl
  | none =>
    rw [hl] at ht
    have hn := List.getLast?_eq_none_iff.1 hl
    have := h.fresh hn
    simp only at ht ⊢
    omega

/-- Within the segments the cursor can be put anywhere. -/
theorem Shows.withCursor {w : Window σ} (h : w.Shows text) {offset : Nat}
    (hs : w.residentStart ≤ offset) (ht : offset ≤ w.residentStop) :
    ({ w with cursor := offset } : Window σ).Shows text := by
  have hstop := h.residentStop_withCursor hs ht
  refine ⟨hstop ▸ h.tiled, hs, hstop ▸ ht, hstop ▸ h.stop_le, fun hn => ?_, h.full, ?_⟩
  · have hc := h.fresh hn
    have hr : w.residentStop = w.cursor := by rw [residentStop, hn]; rfl
    show offset = 0
    omega
  · have := h.supplied
    unfold Supplied at this ⊢
    rw [hstop]
    exact this

theorem Shows.advance {w : Window σ} (h : w.Shows text) {count : Nat}
    (hc : w.cursor + count ≤ w.residentStop) : (w.advance count).Shows text :=
  h.withCursor (Nat.le_trans h.start_le (Nat.le_add_right ..)) hc

theorem Shows.seek {w w' : Window σ} (h : w.Shows text) {offset : Nat}
    (hs : w.seek offset = .ok w') : w'.Shows text := by
  unfold Window.seek at hs
  split at hs
  · next hr =>
    cases hs
    exact h.withCursor hr.1 hr.2
  · cases hs

/-! ### What is at hand -/

/-- Characters at hand are the text from the cursor on. -/
theorem Shows.of_rest?_eq_some {w : Window σ} (h : w.Shows text) {cs : List Char}
    (hr : w.rest? = some cs) :
    cs ≠ [] ∧ cs <+: text.drop w.cursor ∧ w.cursor + cs.length ≤ w.residentStop := by
  obtain ⟨s, hf, rfl⟩ := Option.map_eq_some_iff.1 hr
  have hm : s ∈ w.segments := by simpa using List.mem_of_find?_eq_some hf
  have hh := List.find?_some hf
  simp only [Segment.holds, Bool.and_eq_true, decide_eq_true_eq] at hh
  obtain ⟨hp, _, hs⟩ := h.tiled.of_mem hm
  have hstop : s.stop = s.start + s.text.length := rfl
  refine ⟨fun hn => ?_, Segment.drop_isPrefix hp hh.1, ?_⟩
  · have := congrArg List.length hn
    rw [List.length_drop, List.length_nil] at this
    omega
  · rw [List.length_drop]
    omega

/-- If there are none, the cursor is behind the last segment. -/
theorem Shows.of_rest?_eq_none {w : Window σ} (h : w.Shows text) (hr : w.rest? = none) :
    w.cursor = w.residentStop := by
  rcases Nat.lt_or_eq_of_le h.le_stop with hlt | he
  · obtain ⟨s, hm, hh⟩ := h.tiled.exists_holds h.start_le hlt
    exact absurd hh (List.find?_eq_none.1 (Option.map_eq_none_iff.1 hr) s (List.mem_reverse.2 hm))
  · exact he

/-! ### Reading on -/

/-- The window after more of its text was read or passed over: the open loops are those that were
open, and what they may go back to is still there. -/
structure Continues (text : List Char) (w w' : Window σ) : Prop where
  shows : w'.Shows text
  growth : w'.growth = w.growth
  isFixed : w'.isFixed = w.isFixed
  /-- Where all of the text is there, only the cursor moves. -/
  of_isFixed : w.isFixed = true → w' = { w with cursor := w'.cursor }
  stop_le : w.residentStop ≤ w'.residentStop
  start_eq : 0 < w.growth → w'.residentStart = w.residentStart

/-- The window after more of its text was read: also the cursor is where it was. -/
structure ReadsOnTo (text : List Char) (w w' : Window σ) : Prop extends Continues text w w' where
  cursor : w'.cursor = w.cursor

theorem Continues.refl {w : Window σ} (h : w.Shows text) : w.Continues text w :=
  ⟨h, rfl, rfl, fun _ => rfl, Nat.le_refl _, fun _ => rfl⟩

theorem Continues.trans {w w' w'' : Window σ} (h : w.Continues text w')
    (h' : w'.Continues text w'') : w.Continues text w'' where
  shows := h'.shows
  growth := h'.growth.trans h.growth
  isFixed := h'.isFixed.trans h.isFixed
  of_isFixed hf := by
    have h₁ := h.of_isFixed hf
    have h₂ := h'.of_isFixed (h.isFixed.trans hf)
    rw [h₂, h₁]
  stop_le := Nat.le_trans h.stop_le h'.stop_le
  start_eq hg := (h'.start_eq (h.growth ▸ hg)).trans (h.start_eq hg)

theorem ReadsOnTo.refl {w : Window σ} (h : w.Shows text) : w.ReadsOnTo text w :=
  ⟨.refl h, rfl⟩

theorem ReadsOnTo.trans {w w' w'' : Window σ} (h : w.ReadsOnTo text w')
    (h' : w'.ReadsOnTo text w'') : w.ReadsOnTo text w'' :=
  ⟨h.toContinues.trans h'.toContinues, h'.cursor.trans h.cursor⟩

/-- Characters at hand can be passed over. -/
theorem Continues.advance {w w' : Window σ} (h : w.Continues text w') {count : Nat}
    (hc : w'.cursor + count ≤ w'.residentStop) : w.Continues text (w'.advance count) where
  shows := h.shows.advance hc
  growth := h.growth
  isFixed := h.isFixed
  of_isFixed hf := by
    rw [Window.advance, h.of_isFixed hf]
  stop_le := by
    have := h.shows.start_le
    have hstop := h.shows.residentStop_withCursor (by omega) hc
    rw [Window.advance, hstop]
    exact h.stop_le
  start_eq := h.start_eq

/-- An empty segment at the cursor, behind segments that are full. -/
theorem Shows.begin {w : Window σ} (h : w.Shows text) (hc : w.cursor = w.residentStop)
    {source : σ} {size : Nat} {ended : Bool} (hs : w.supply = .streaming source size ended)
    {start : Nat} {before : List Segment} (ht : Tiles text start before w.cursor)
    (hf : ∀ s ∈ before, s.isFull = true)
    (hb : ∀ s ∈ before, s.buffer.size = size ∧ s.text.length ≤ size) :
    ({ w with segments := before ++ [{ start := w.cursor, buffer := ⟨size⟩ }] } : Window σ).Shows
      text := by
  have htiled : Tiles text start (before ++ [{ start := w.cursor, buffer := ⟨size⟩ }]) w.cursor :=
    Tiles.concat_iff.2 ⟨ht, List.nil_prefix, rfl⟩
  have hstart := residentStart_of_tiles
    (w := { w with segments := before ++ [{ start := w.cursor, buffer := ⟨size⟩ }] }) htiled
    (by simp)
  have hstop := residentStop_concat
    { w with segments := before ++ [{ start := w.cursor, buffer := ⟨size⟩ }] } rfl
  have hlast : ({ start := w.cursor, buffer := ⟨size⟩ } : Segment).stop = w.cursor := rfl
  rw [hlast] at hstop
  obtain ⟨hrest, hended, hpos, _⟩ := (supplied_iff hs).1 h.supplied
  refine ⟨?_, ?_, Nat.le_of_eq hstop.symm, ?_, fun hn => by simp at hn, ?_, ?_⟩
  · rw [hstart, hstop]
    exact htiled
  · rw [hstart]
    exact ht.start_le
  · rw [hstop, hc]
    exact h.stop_le
  · intro s hm
    rw [List.dropLast_concat] at hm
    exact hf s hm
  · refine (supplied_iff (w := { w with segments := before ++ _ }) hs).2
      ⟨?_, hended, hpos, fun s hm => ?_⟩
    · rw [hstop, hc]
      exact hrest
    · rcases List.mem_append.1 hm with hm | hm
      · exact hb s hm
      · rw [List.mem_singleton.1 hm]
        exact ⟨rfl, Nat.zero_le _⟩

/-- Making room keeps what the window shows, and behind the cursor there is room then. -/
theorem Shows.makeRoom {w : Window σ} (h : w.Shows text) (hc : w.cursor = w.residentStop)
    {source : σ} {size : Nat} {ended : Bool} (hs : w.supply = .streaming source size ended)
    {before : List Segment} {last : Segment} {pool pool' : Pool}
    (hm : w.makeRoom size pool = (before, last, pool')) :
    w.ReadsOnTo text { w with segments := before ++ [last] } ∧
      last.stop = w.cursor ∧ last.buffer.size = size ∧ last.text.length < size := by
  obtain ⟨_, _, hpos, hsize⟩ := (supplied_iff hs).1 h.supplied
  -- In three of the four cases an empty segment is begun at the cursor.
  have hbegun : ∀ {start : Nat} {before : List Segment}, Tiles text start before w.cursor →
      (∀ s ∈ before, s.isFull = true) →
      (∀ s ∈ before, s.buffer.size = size ∧ s.text.length ≤ size) →
      (0 < w.growth → start = w.residentStart) →
      w.ReadsOnTo text
        { w with segments := before ++ [{ start := w.cursor, buffer := ⟨size⟩ }] } ∧
        (({ start := w.cursor, buffer := ⟨size⟩ } : Segment).stop = w.cursor ∧ size = size ∧
          0 < size) := by
    intro start before ht hf hb hg
    have hstreams : w.isFixed = false := by rw [isFixed, hs]
    refine ⟨⟨⟨h.begin hc hs ht hf hb, rfl, rfl, fun hw => ?_, ?_, fun hw => ?_⟩, rfl⟩, rfl, rfl,
      hpos⟩
    · rw [hstreams] at hw
      cases hw
    · rw [residentStop_concat { w with segments := before ++ _ } rfl, ← hc]
      exact Nat.le_refl _
    · rw [← hg hw]
      exact residentStart_of_tiles (w := { w with segments := before ++ _ })
        (Tiles.concat_iff.2 ⟨ht, List.nil_prefix, rfl⟩) (by simp)
  unfold Window.makeRoom at hm
  split at hm
  · next hl =>
    have hn := List.getLast?_eq_none_iff.1 hl
    rw [Pool.checkOut_eq] at hm
    cases hm
    refine hbegun (show w.cursor = w.cursor from rfl) (fun s hm => by cases hm)
      (fun s hm => by cases hm) fun _ => ?_
    rw [residentStart, hn, h.fresh hn]
    rfl
  · next last' hl =>
    obtain ⟨front, hw⟩ := List.getLast?_eq_some_iff.1 hl
    have hmem : last' ∈ w.segments := by rw [hw]; simp
    split at hm
    · next hfull =>
      split at hm
      · next hg =>
        cases hm
        obtain ⟨hbuffer, _⟩ := hsize last' hmem
        obtain ⟨_, _, ⟨n⟩⟩ := last'
        obtain rfl : n = size := hbuffer
        exact hbegun (show w.cursor = w.cursor from rfl) (fun s hm => by cases hm)
          (fun s hm => by cases hm) fun hw => by omega
      · rw [Pool.checkOut_eq] at hm
        cases hm
        refine hbegun (hc ▸ h.tiled) (fun s hm => ?_) hsize fun _ => rfl
        rw [hw] at hm
        rcases List.mem_append.1 hm with hm | hm
        · exact h.full s (by rw [hw, List.dropLast_concat]; exact hm)
        · rw [List.mem_singleton.1 hm]
          exact hfull
    · next hfull =>
      cases hm
      have hsame : ({ w with segments := w.segments.dropLast ++ [last] } : Window σ) = w := by
        rw [hw, List.dropLast_concat, ← hw]
      rw [hsame]
      obtain ⟨hbuffer, hle⟩ := hsize last hmem
      refine ⟨.refl h, ?_, hbuffer, ?_⟩
      · rw [hc, residentStop_concat w hw]
      · simp only [Segment.isFull, decide_eq_true_eq, hbuffer] at hfull
        omega

/-- What was read goes behind the last segment. -/
theorem Shows.filled {w : Window σ} {before : List Segment} {last : Segment}
    (h : ({ w with segments := before ++ [last] } : Window σ).Shows text)
    {source source' : σ} {size : Nat} {ended ended' : Bool}
    (hs : w.supply = .streaming source size ended) (cs : List Char)
    (hr : FaithfulSource.rest source = cs ++ FaithfulSource.rest source')
    (he : ended' = true → FaithfulSource.rest source' = [])
    (hroom : last.text.length + cs.length ≤ size) :
    ({ w with segments := before ++ [last] } : Window σ).ReadsOnTo text
      (w.filled before last source' size ended' cs) := by
  have hstop := residentStop_concat { w with segments := before ++ [last] } rfl
  have hstop' := residentStop_concat (w.filled before last source' size ended' cs) rfl
  have hlen : ({ last with text := last.text ++ cs } : Segment).stop = last.stop + cs.length := by
    simp only [Segment.stop, List.length_append]
    omega
  rw [hlen] at hstop'
  obtain ⟨hrest, _, hpos, hsize⟩ :=
    (supplied_iff (w := { w with segments := before ++ [last] }) hs).1 h.supplied
  rw [hstop] at hrest
  have htiled := h.tiled
  rw [hstop] at htiled
  obtain ⟨hb, hp, _⟩ := Tiles.concat_iff.1 htiled
  -- The text behind the last segment is what was read and what the source still tells.
  have htext : text.drop last.start = last.text ++ (cs ++ FaithfulSource.rest source') := by
    obtain ⟨t, ht⟩ := hp
    have : text.drop last.stop = t := by
      rw [Segment.stop, ← List.drop_drop, ← ht, List.drop_left]
    rw [← ht, ← this, ← hrest, hr]
  have hle : last.stop + cs.length ≤ text.length := by
    have := congrArg List.length (hr.symm.trans hrest)
    have hstop_le := h.stop_le
    rw [hstop] at hstop_le
    simp only [List.length_append, List.length_drop] at this
    omega
  have hstart := residentStart_of_tiles (w := { w with segments := before ++ [last] }) htiled
    (by simp)
  have htiled' : Tiles text ({ w with segments := before ++ [last] } : Window σ).residentStart
      (before ++ [{ last with text := last.text ++ cs }]) (last.stop + cs.length) :=
    Tiles.concat_iff.2 ⟨hb, ⟨FaithfulSource.rest source', by rw [htext, List.append_assoc]⟩, hlen⟩
  have hstart' := residentStart_of_tiles (w := w.filled before last source' size ended' cs) htiled'
    (by simp [Window.filled])
  have hcursor := h.le_stop
  rw [hstop] at hcursor
  have hstreams : ({ w with segments := before ++ [last] } : Window σ).isFixed = false := by
    rw [isFixed, hs]
  refine ⟨⟨⟨?_, ?_, ?_, ?_, fun hn => by simp [Window.filled] at hn, ?_, ?_⟩, rfl, ?_, fun hf => ?_,
    ?_, fun _ => hstart'⟩, rfl⟩
  · rw [hstart', hstop']
    exact htiled'
  · rw [hstart']
    exact h.start_le
  · rw [hstop']
    exact Nat.le_trans hcursor (Nat.le_add_right ..)
  · rw [hstop']
    exact hle
  · intro s hm
    refine h.full s ?_
    rw [Window.filled, List.dropLast_concat] at hm
    rw [List.dropLast_concat]
    exact hm
  · refine (supplied_iff (w := w.filled before last source' size ended' cs) rfl).2
      ⟨?_, he, hpos, fun s hm => ?_⟩
    · rw [hstop', ← List.drop_drop, ← hrest, hr, List.drop_left]
    · rcases List.mem_append.1 hm with hm | hm
      · exact hsize s (List.mem_append_left _ hm)
      · rw [List.mem_singleton.1 hm]
        refine ⟨(hsize last (by simp)).1, ?_⟩
        rw [List.length_append]
        exact hroom
  · rw [hstreams]
    rfl
  · rw [hstreams] at hf
    cases hf
  · rw [hstop, hstop']
    exact Nat.le_add_right ..

omit [FaithfulSource σ] in
/-- What reading on can do. -/
theorem fill_cases {w w' : Window σ} {pool pool' : Pool} {result : Except RenderError Bool}
    (h : w.fill pool = (result, w', pool')) :
    (w.supply = .fixed ∧ result = .ok false ∧ w' = w) ∨
    (∃ source size, w.supply = .streaming source size true ∧ result = .ok false ∧ w' = w) ∨
    ∃ source size before last answer source', w.supply = .streaming source size false ∧
      w.makeRoom size pool = (before, last, pool') ∧
      CharSource.read source (last.buffer.size - last.text.length) = (answer, source') ∧
      ((∃ e, answer = .error e ∧ result = .error (.io e) ∧
          w' = w.filled before last source' size false []) ∨
        (answer = .ok [] ∧ result = .ok false ∧ w' = w.filled before last source' size true []) ∨
        ∃ c cs, answer = .ok (c :: cs) ∧ result = .ok true ∧
          w' = w.filled before last source' size false (c :: cs)) := by
  unfold fill at h
  split at h
  · next hs =>
    cases h
    exact .inl ⟨hs, rfl, rfl⟩
  · next source size ended hs =>
    split at h
    · next he =>
      cases h
      exact .inr (.inl ⟨source, size, he ▸ hs, rfl, rfl⟩)
    · next he =>
      have hs : w.supply = .streaming source size false := by rw [hs, Bool.eq_false_iff.2 he]
      split at h
      next before last pool'' hm =>
      refine .inr (.inr ⟨source, size, before, last, ?_⟩)
      split at h
      · next e source' hr =>
        cases h
        exact ⟨_, source', hs, hm, hr, .inl ⟨e, rfl, rfl, rfl⟩⟩
      · next source' hr =>
        cases h
        exact ⟨_, source', hs, hm, hr, .inr (.inl ⟨rfl, rfl, rfl⟩)⟩
      · next c cs source' hr =>
        cases h
        exact ⟨_, source', hs, hm, hr, .inr (.inr ⟨c, cs, rfl, rfl, rfl⟩)⟩

/-- Reading on at the end of what is at hand. -/
theorem Shows.fill {w w' : Window σ} (h : w.Shows text) (hc : w.cursor = w.residentStop)
    {pool pool' : Pool} {result : Except RenderError Bool}
    (hf : w.fill pool = (result, w', pool')) :
    w.ReadsOnTo text w' ∧ (result = .ok false → w.cursor = text.length) := by
  rcases fill_cases hf with ⟨hs, rfl, rfl⟩ | ⟨source, size, hs, rfl, rfl⟩ |
    ⟨source, size, before, last, answer, source', hs, hm, hr, hcase⟩
  · refine ⟨.refl h, fun _ => ?_⟩
    have := h.supplied
    rw [Supplied, hs] at this
    exact hc.trans this
  · obtain ⟨hrest, hended, _⟩ := (supplied_iff hs).1 h.supplied
    refine ⟨.refl h, fun _ => ?_⟩
    rw [hended rfl] at hrest
    have := List.drop_eq_nil_iff.1 hrest.symm
    have := h.stop_le
    omega
  · obtain ⟨hroom, hstop, hsize, hlt⟩ := h.makeRoom hc hs hm
    obtain ⟨hrest, _⟩ := (supplied_iff hs).1 h.supplied
    have hpos : 0 < last.buffer.size - last.text.length := by omega
    rcases hcase with ⟨e, rfl, rfl, rfl⟩ | ⟨rfl, rfl, rfl⟩ | ⟨c, cs, rfl, rfl, rfl⟩
    · refine ⟨hroom.trans (hroom.shows.filled hs [] ?_ nofun ?_), nofun⟩
      · exact (FaithfulSource.rest_of_error hr hpos).symm
      · exact Nat.le_of_lt hlt
    · have hend := FaithfulSource.rest_of_end hr hpos
      have hok := FaithfulSource.rest_of_ok hr hpos
      rw [List.nil_append] at hok
      refine ⟨hroom.trans (hroom.shows.filled hs [] hok (fun _ => hok ▸ hend) ?_),
        fun _ => ?_⟩
      · exact Nat.le_of_lt hlt
      · rw [hend] at hrest
        have := List.drop_eq_nil_iff.1 hrest.symm
        have := h.stop_le
        omega
    · have hrest' := FaithfulSource.rest_of_ok hr hpos
      refine ⟨hroom.trans (hroom.shows.filled hs (c :: cs) hrest' nofun ?_), nofun⟩
      have := CharSource.length_le_limit hr
      omega

/-- Asking for characters gives the text from the cursor on, and nothing only at its end. -/
theorem Shows.span {w w' : Window σ} (h : w.Shows text) {pool pool' : Pool}
    {result : Except RenderError (List Char)} (hs : w.span pool = (result, w', pool')) :
    w.ReadsOnTo text w' ∧ ∀ cs, result = .ok cs →
      cs <+: text.drop w.cursor ∧ w.cursor + cs.length ≤ w'.residentStop ∧
        (cs = [] → w.cursor = text.length) := by
  fun_induction Window.span w pool with
  | case1 w pool cs hr =>
    cases hs
    obtain ⟨hn, hp, hle⟩ := h.of_rest?_eq_some hr
    exact ⟨.refl h, fun cs' he => by cases he; exact ⟨hp, hle, fun h0 => absurd h0 hn⟩⟩
  | case2 w pool hr w₁ pool₁ hf ih =>
    obtain ⟨hread, _⟩ := h.fill (h.of_rest?_eq_none hr) hf
    obtain ⟨hread', hcs⟩ := ih hread.shows hs
    rw [hread.cursor] at hcs
    exact ⟨hread.trans hread', hcs⟩
  | case3 w pool hr w₁ pool₁ hf =>
    cases hs
    obtain ⟨hread, hend⟩ := h.fill (h.of_rest?_eq_none hr) hf
    refine ⟨hread, fun cs he => ?_⟩
    cases he
    refine ⟨List.nil_prefix, ?_, fun _ => hend rfl⟩
    rw [← hread.cursor]
    exact hread.shows.le_stop
  | case4 w pool hr e w₁ pool₁ hf =>
    cases hs
    exact ⟨(h.fill (h.of_rest?_eq_none hr) hf).1, fun cs he => by cases he⟩

/-! ### Loops -/

theorem Shows.openLoop {w : Window σ} (h : w.Shows text) : w.openLoop.Shows text :=
  ⟨h.tiled, h.start_le, h.le_stop, h.stop_le, h.fresh, h.full, h.supplied⟩

/-- Dropping segments behind the cursor leaves those that lie behind it. -/
theorem tiles_dropBehind {start stop offset : Nat} {segments : List Segment}
    (h : Tiles text start segments stop) (hs : start ≤ offset) :
    ∃ start', Tiles text start' (dropBehind offset segments) stop ∧ start' ≤ offset ∧
      start ≤ start' := by
  fun_induction dropBehind offset segments generalizing start with
  | case1 s t rest hle ih =>
    obtain ⟨rfl, _, ht⟩ := h
    obtain ⟨start', ht', hle', hge⟩ := ih ht hle
    exact ⟨start', ht', hle', Nat.le_trans (Nat.le_add_right ..) hge⟩
  | case2 => exact ⟨start, h, hs, Nat.le_refl _⟩
  | case3 => exact ⟨start, h, hs, Nat.le_refl _⟩

theorem dropBehind_suffix (offset : Nat) (segments : List Segment) :
    dropBehind offset segments <:+ segments ∧
      (segments ≠ [] → dropBehind offset segments ≠ []) := by
  fun_induction dropBehind offset segments with
  | case1 s t rest hle ih => exact ⟨ih.1.trans (List.suffix_cons ..), fun _ => ih.2 (by simp)⟩
  | case2 => exact ⟨List.suffix_rfl, id⟩
  | case3 => exact ⟨List.suffix_rfl, id⟩

theorem getLast?_dropBehind (offset : Nat) (segments : List Segment) :
    (dropBehind offset segments).getLast? = segments.getLast? := by
  fun_induction dropBehind offset segments with
  | case1 s t rest hle ih => rw [ih, List.getLast?_cons_cons]
  | case2 => rfl
  | case3 => rfl

/-- Giving segments behind the cursor back. -/
theorem Shows.dropBehind {w : Window σ} (h : w.Shows text) :
    ({ w with segments := Window.dropBehind w.cursor w.segments } : Window σ).Shows text := by
  obtain ⟨⟨front, hfront⟩, hne⟩ := dropBehind_suffix w.cursor w.segments
  have hstop : ({ w with segments := Window.dropBehind w.cursor w.segments } : Window σ).residentStop =
      w.residentStop := by
    simp only [residentStop, getLast?_dropBehind]
  obtain ⟨start', ht, hle, _⟩ := tiles_dropBehind h.tiled h.start_le
  have hmem : ∀ s ∈ Window.dropBehind w.cursor w.segments, s ∈ w.segments := fun s hs =>
    hfront ▸ List.mem_append_right _ hs
  have hsupplied : ({ w with segments := Window.dropBehind w.cursor w.segments } : Window σ).Supplied
      text := by
    have := h.supplied
    unfold Supplied at this ⊢
    rw [hstop]
    cases hs : w.supply with
    | fixed => rw [hs] at this; exact this
    | streaming source size ended =>
      rw [hs] at this
      exact ⟨this.1, this.2.1, this.2.2.1, fun s hm => this.2.2.2 s (hmem s hm)⟩
  by_cases hn : w.segments = []
  · have hd : Window.dropBehind w.cursor w.segments = w.segments := by rw [hn]; rfl
    rw [hd]
    exact h
  · have hstart := residentStart_of_tiles
      (w := { w with segments := Window.dropBehind w.cursor w.segments }) ht (hne hn)
    refine ⟨?_, ?_, hstop ▸ h.le_stop, hstop ▸ h.stop_le, fun h0 => absurd h0 (hne hn), ?_, hsupplied⟩
    · rw [hstart, hstop]
      exact ht
    · rw [hstart]
      exact hle
    · intro s hs
      refine h.full s ?_
      rw [← hfront, List.dropLast_append_of_ne_nil (hne hn)]
      exact List.mem_append_right _ hs

theorem Shows.trim {w : Window σ} (h : w.Shows text) (pool : Pool) :
    (w.trim pool).1.Shows text := by
  unfold Window.trim
  split
  · exact h.dropBehind
  · exact h

theorem Shows.closeLoop {w : Window σ} (h : w.Shows text) (pool : Pool) :
    (w.closeLoop pool).1.Shows text := by
  have hgrowth : ∀ growth, ({ w with growth } : Window σ).Shows text := fun growth =>
    ⟨h.tiled, h.start_le, h.le_stop, h.stop_le, h.fresh, h.full, h.supplied⟩
  unfold Window.closeLoop
  split
  · exact h
  · exact (hgrowth 0).trim pool
  · exact hgrowth _

/-! ### The cursor -/

section Cursor
omit [FaithfulSource σ]

theorem cursor_fill (w : Window σ) (pool : Pool) : (w.fill pool).2.1.cursor = w.cursor := by
  unfold fill
  split
  · rfl
  · split
    · rfl
    · dsimp only
      split <;> rfl

/-- Where nothing is at hand, characters are given once more are read. -/
theorem span_of_fill {w w' : Window σ} {pool pool' : Pool} {more : Bool} (hr : w.rest? = none)
    (hf : w.fill pool = (.ok more, w', pool')) :
    w.span pool = if more then w'.span pool' else (.ok [], w', pool') := by
  rw [span, hr]
  dsimp only
  split
  · next h =>
    cases hf.symm.trans h
    rfl
  · next h =>
    cases hf.symm.trans h
    rfl
  · next h => cases hf.symm.trans h

theorem cursor_span (w : Window σ) (pool : Pool) : (w.span pool).2.1.cursor = w.cursor := by
  fun_induction span w pool with
  | case1 => rfl
  | case2 w pool _ w' pool' h ih =>
    have hfill := cursor_fill w pool
    rw [h] at hfill
    exact ih.trans hfill
  | case3 w pool _ w' pool' h =>
    have hfill := cursor_fill w pool
    rw [h] at hfill
    exact hfill
  | case4 w pool _ e w' pool' h =>
    have hfill := cursor_fill w pool
    rw [h] at hfill
    exact hfill

omit [CharSource σ] in
theorem eq_of_seek {w w' : Window σ} {offset : Nat} (h : w.seek offset = .ok w') :
    w' = { w with cursor := offset } := by
  unfold seek at h
  split at h
  · cases h
    rfl
  · cases h

omit [CharSource σ] in
theorem cursor_of_seek {w w' : Window σ} {offset : Nat} (h : w.seek offset = .ok w') :
    w'.cursor = offset := by
  rw [eq_of_seek h]

end Cursor

/-! ### Any sequence of calls -/

inductive Call where
  | span
  | advance (count : Nat)
  /-- Move the cursor; if that is refused, nothing happens. -/
  | seek (offset : Nat)
  | openLoop
  | closeLoop
  | trim
  /-- Others use the pool in the meantime. -/
  | elsewhere (pool : Pool)

namespace Call

/-- What users of a window keep to: they pass over characters at hand only, and close no loop that
is not open. -/
def allowed (w : Window σ) : Call → Bool
  | advance count => count ≤ (w.rest?.getD []).length
  | closeLoop => 0 < w.growth
  | _ => true

def after (s : Window σ × Pool) : Call → Window σ × Pool
  | span => (s.1.span s.2).2
  | advance count => (s.1.advance count, s.2)
  | seek offset =>
    match s.1.seek offset with
    | .ok w => (w, s.2)
    | .error _ => s
  | openLoop => (s.1.openLoop, s.2)
  | closeLoop => s.1.closeLoop s.2
  | trim => s.1.trim s.2
  | elsewhere pool => (s.1, pool)

def afterAll (s : Window σ × Pool) : List Call → Window σ × Pool
  | [] => s
  | call :: calls => afterAll (call.after s) calls

def allAllowed (s : Window σ × Pool) : List Call → Bool
  | [] => true
  | call :: calls => call.allowed s.1 && allAllowed (call.after s) calls

/-- No call makes the window show another text. -/
theorem shows_after {s : Window σ × Pool} (h : s.1.Shows text) {call : Call}
    (ha : call.allowed s.1 = true) : (call.after s).1.Shows text := by
  obtain ⟨w, pool⟩ := s
  cases call with
  | span => exact (h.span (Prod.eta _).symm).1.shows
  | advance count =>
    simp only [allowed, decide_eq_true_eq] at ha
    refine h.advance ?_
    cases hr : w.rest? with
    | none =>
      rw [hr] at ha
      have := h.le_stop
      simp only [Option.getD_none, List.length_nil] at ha
      omega
    | some cs =>
      rw [hr] at ha
      have := (h.of_rest?_eq_some hr).2.2
      simp only [Option.getD_some] at ha
      omega
  | seek offset =>
    show (match w.seek offset with
      | .ok w' => (w', pool)
      | .error _ => (w, pool) : Window σ × Pool).1.Shows text
    cases hw : w.seek offset with
    | ok w' => exact Shows.seek h hw
    | error e => exact h
  | openLoop => exact h.openLoop
  | closeLoop => exact h.closeLoop pool
  | trim => exact h.trim pool
  | elsewhere pool => exact h

theorem shows_afterAll (calls : List Call) {s : Window σ × Pool} (h : s.1.Shows text)
    (ha : allAllowed s calls = true) : (afterAll s calls).1.Shows text := by
  induction calls generalizing s with
  | nil => exact h
  | cons call calls ih =>
    simp only [allAllowed, Bool.and_eq_true] at ha
    exact ih (shows_after h ha.1) ha.2

end Call

/-- What a window answers its users, with the text that it shows. -/
structure Answers (text : List Char) (w : Window σ) (pool : Pool) : Prop where
  /-- Its segments and its source hold the text. -/
  shows : w.Shows text
  /-- So they do after it was asked for characters, also if that failed, and the cursor stays. -/
  reads : w.ReadsOnTo text (w.span pool).2.1
  /-- Characters that it gives are the text from the cursor on. -/
  span_isPrefix : ∀ cs, (w.span pool).1 = .ok cs → cs <+: text.drop w.cursor
  /-- It gives none only at the end of the text. -/
  cursor_of_end : (w.span pool).1 = .ok [] → w.cursor = text.length
  /-- A place that the cursor cannot be moved to changes nothing. -/
  of_refused : ∀ offset e, w.seek offset = .error e → (Call.seek offset).after (w, pool) = (w, pool)

theorem Shows.answers {w : Window σ} (h : w.Shows text) (pool : Pool) : w.Answers text pool := by
  obtain ⟨hreads, hspan⟩ := h.span (Prod.eta (w.span pool)).symm
  refine ⟨h, hreads, fun cs hcs => (hspan cs hcs).1, fun hcs => (hspan [] hcs).2.2 rfl,
    fun offset e he => ?_⟩
  simp only [Call.after, he]

/-- **A window over a source never loses its place**: whatever is asked of it, in whatever pieces the
source gives its text and however often a read fails, the segments hold the text of their offsets and
what is given is the text at the cursor. -/
theorem answers_of_calls (source : σ) (size : Nat) (pool : Pool) (calls : List Call)
    (h : Call.allAllowed (streaming source size, pool) calls = true) :
    (Call.afterAll (streaming source size, pool) calls).1.Answers (FaithfulSource.rest source)
      (Call.afterAll (streaming source size, pool) calls).2 :=
  (Call.shows_afterAll calls (shows_streaming source size) h).answers _

/-- A source that gives its text by one or two characters and fails twice, under a window of two
characters that goes back to the beginning of a loop. -/
theorem answers_of_flaky_calls :
    let source : FlakySource :=
      ⟨"abcde".toList, [.ok 0, .error "later", .ok 1, .error "again"]⟩
    let start : Window FlakySource × Pool := (streaming source 2, ⟨[], 1, 0⟩)
    let calls : List Call := [.span, .openLoop, .advance 1, .span, .span, .advance 1, .span, .span,
      .advance 1, .seek 0, .span, .closeLoop, .seek 9]
    Call.allAllowed start calls = true ∧
      (Call.afterAll start calls).1.Answers "abcde".toList (Call.afterAll start calls).2 := by
  intro source start calls
  have h : Call.allAllowed start calls = true := by decide +kernel
  exact ⟨h, answers_of_calls source 2 _ calls h⟩

end Window

end Stencil
