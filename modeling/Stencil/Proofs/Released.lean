import Stencil.Proofs.Window

/-! A window whose buffers were given back.

The segments of a window can be given back at any time. Its cursor stays where it is, but the source is
where the last of them ended: what was read of it and not passed over is gone. So what the window gives
from then on is text that lies further on, by as many characters as were lost. And without segments the
cursor can be moved to any place in front of it, which puts the two apart as well. That is all that can
go wrong: `Window.trails_of_events` says how far from its cursor a window is after whatever was done with
it. Only where nothing was lost are the two the same. -/
namespace Stencil.Window
variable {σ : Type} [CharSource σ]

/-! ### What happens to a window -/

/-- What happens to a window. -/
inductive Event where
  | call (call : Call)
  /-- All its segments are given back. -/
  | release

namespace Event

/-- Users pass over characters at hand only. -/
def allowed (w : Window σ) : Event → Bool
  | call (.advance count) => (Call.advance count).allowed w
  | _ => true

def after (s : Window σ × Pool) : Event → Window σ × Pool
  | call c => c.after s
  | release => s.1.release s.2

def afterAll (s : Window σ × Pool) : List Event → Window σ × Pool
  | [] => s
  | event :: events => afterAll (event.after s) events

def allAllowed (s : Window σ × Pool) : List Event → Bool
  | [] => true
  | event :: events => event.allowed s.1 && allAllowed (event.after s) events

/-- How many characters the window loses: those that were read and not passed over when its segments
are given back, and those that its cursor is moved back by while there are no segments. -/
def lostBy (w : Window σ) : Event → Nat
  | call (.seek offset) => if w.segments = [] then w.cursor - offset else 0
  | call _ => 0
  | release => w.residentStop - w.cursor

/-- How many characters are lost by some events. -/
def lost (s : Window σ × Pool) : List Event → Nat
  | [] => 0
  | event :: events => event.lostBy s.1 + lost (event.after s) events

end Event

/-! ### A window that is behind its source -/

variable [FaithfulSource σ] {text : List Char} {lag : Nat} {w w' : Window σ}

/-- The window takes its text for one that begins earlier, by so many characters. -/
structure Lags (text : List Char) (lag : Nat) (w : Window σ) : Prop where
  streams : w.isFixed = false
  supplied : w.Supplied (text.drop lag)
  stop_le : w.residentStop + lag ≤ text.length
  /-- As long as it has segments, these hold the text that lies further on. -/
  shows : w.segments ≠ [] → w.Shows (text.drop lag)

theorem lags_streaming (source : σ) (size : Nat) :
    (streaming source size).Lags (FaithfulSource.rest source) 0 where
  streams := rfl
  supplied := (shows_streaming source size).supplied
  stop_le := Nat.zero_le _
  shows hn := absurd rfl hn

omit [FaithfulSource σ] [CharSource σ] in
theorem exists_of_streams (h : w.isFixed = false) :
    ∃ source size ended, w.supply = .streaming source size ended := by
  unfold isFixed at h
  split at h
  · cases h
  · next source size ended hs => exact ⟨source, size, ended, hs⟩

theorem Shows.lags (h : w.Shows (text.drop lag)) (hs : w.isFixed = false) (hl : lag ≤ text.length) :
    w.Lags text lag where
  streams := hs
  supplied := h.supplied
  stop_le := by
    have hstop := h.stop_le
    rw [List.length_drop] at hstop
    omega
  shows _ := h

namespace Lags

theorem cursor_le (h : w.Lags text lag) : w.cursor ≤ w.residentStop := by
  by_cases hn : w.segments = []
  · simp [residentStop, hn]
  · exact (h.shows hn).le_stop

theorem le_length (h : w.Lags text lag) : lag ≤ text.length :=
  Nat.le_trans (Nat.le_add_left ..) h.stop_le

/-- Without segments it is only the source that says where the text goes on. -/
theorem of_empty {lag' : Nat} (h : w.Lags text lag) (hs : w'.supply = w.supply)
    (hn : w'.segments = []) (hc : w'.cursor + lag' = w.residentStop + lag) :
    w'.Lags text lag' := by
  obtain ⟨source, size, ended, hsupply⟩ := exists_of_streams h.streams
  obtain ⟨hrest, hended, hpos, -⟩ := (supplied_iff hsupply).1 h.supplied
  have hstop : w'.residentStop = w'.cursor := by simp [residentStop, hn]
  refine ⟨?_, (supplied_iff (hs.trans hsupply)).2 ⟨?_, hended, hpos, ?_⟩, ?_, fun hne => absurd hn hne⟩
  · rw [isFixed, hs]
    exact h.streams
  · rw [hrest, List.drop_drop, List.drop_drop, hstop, Nat.add_comm lag', hc, Nat.add_comm lag]
  · simp [hn]
  · rw [hstop, hc]
    exact h.stop_le

end Lags

/-! ### Reading without segments -/

def begun (w : Window σ) (size : Nat) : Window σ :=
  { w with segments := [{ start := w.cursor, buffer := ⟨size⟩ }] }

theorem Lags.shows_begun (h : w.Lags text lag) (hn : w.segments = []) {source : σ} {size : Nat}
    {ended : Bool} (hs : w.supply = .streaming source size ended) :
    (w.begun size).Shows (text.drop lag) := by
  obtain ⟨hrest, hended, hpos, -⟩ := (supplied_iff hs).1 h.supplied
  have hstop : w.residentStop = w.cursor := by simp [residentStop, hn]
  have hle := h.stop_le
  rw [hstop] at hrest hle
  have hsupplied : (w.begun size).Supplied (text.drop lag) :=
    (supplied_iff (w := w.begun size) hs).2 ⟨hrest, hended, hpos, by simp [begun]⟩
  exact
    { tiled := ⟨rfl, List.nil_prefix, rfl⟩
      start_le := Nat.le_refl _
      le_stop := Nat.le_refl _
      stop_le := by
        show w.cursor ≤ (text.drop lag).length
        rw [List.length_drop]
        omega
      fresh := fun h => by cases h
      full := fun s hs => by cases hs
      supplied := hsupplied }

omit [FaithfulSource σ] in
/-- What is read first goes into a first segment. -/
theorem fill_of_empty (hn : w.segments = []) {source : σ} {size : Nat} (hp : 0 < size)
    (hs : w.supply = .streaming source size false) (pool : Pool) :
    w.fill pool = (w.begun size).fill (pool.checkOut size).2 := by
  have hroom : w.makeRoom size pool =
      ([], { start := w.cursor, buffer := ⟨size⟩ }, (pool.checkOut size).2) := by
    unfold makeRoom
    rw [hn, Pool.checkOut_eq]
    rfl
  have hbegun : (w.begun size).makeRoom size (pool.checkOut size).2 =
      ([], { start := w.cursor, buffer := ⟨size⟩ }, (pool.checkOut size).2) := by
    have hlt : ¬0 = size := by omega
    simp [makeRoom, begun, Segment.isFull, hlt]
  unfold fill
  rw [show (w.begun size).supply = w.supply from rfl, hs]
  dsimp only
  rw [hroom, hbegun]
  rfl

omit [FaithfulSource σ] in
/-- Where nothing is at hand, characters are what is read. -/
theorem span_congr {pool pool' : Pool} (hr : w.rest? = none) (hr' : w'.rest? = none)
    (hf : w.fill pool = w'.fill pool') : w.span pool = w'.span pool' := by
  rw [span, span, hr, hr']
  dsimp only
  split <;> (
    rename_i h
    rw [hf] at h
    split <;> (
      rename_i h'
      cases h.symm.trans h' <;> rfl))

namespace Lags

/-- What the window gives is what one gives that shows the text further on. -/
theorem span_cases (h : w.Lags text lag) (pool : Pool) :
    (w.span pool = (.ok [], w, pool) ∧ w.cursor + lag = text.length) ∨
      ∃ (shown : Window σ) (pool' : Pool), shown.Shows (text.drop lag) ∧ shown.isFixed = false ∧
        shown.cursor = w.cursor ∧ w.span pool = shown.span pool' := by
  by_cases hn : w.segments = []
  · obtain ⟨source, size, ended, hs⟩ := exists_of_streams h.streams
    obtain ⟨hrest, hended, hpos, -⟩ := (supplied_iff hs).1 h.supplied
    have hr : w.rest? = none := by simp [rest?, hn]
    cases ended with
    | true =>
      have hfill : w.fill pool = (.ok false, w, pool) := by simp [fill, hs]
      have hstop : w.residentStop = w.cursor := by simp [residentStop, hn]
      have hle := h.stop_le
      rw [hended rfl, List.drop_drop, hstop] at hrest
      rw [hstop] at hle
      have hend := List.drop_eq_nil_iff.1 hrest.symm
      exact .inl ⟨by rw [span_of_fill hr hfill]; rfl, by omega⟩
    | false =>
      have hr' : (w.begun size).rest? = none := by simp [rest?, begun, Segment.holds, Segment.stop]
      exact .inr ⟨w.begun size, _, h.shows_begun hn hs, h.streams, rfl,
        span_congr hr hr' (fill_of_empty hn hpos hs pool)⟩
  · exact .inr ⟨w, pool, h.shows hn, h.streams, rfl, rfl⟩

theorem span (h : w.Lags text lag) (pool : Pool) :
    (w.span pool).2.1.Lags text lag ∧ ∀ cs, (w.span pool).1 = .ok cs →
      cs <+: text.drop (w.cursor + lag) ∧ (cs = [] → w.cursor + lag = text.length) := by
  rcases h.span_cases pool with ⟨hspan, hend⟩ | ⟨shown, pool', hshows, hstreams, hcursor, hspan⟩
  · rw [hspan]
    refine ⟨h, fun cs hcs => ?_⟩
    cases hcs
    exact ⟨List.nil_prefix, fun _ => hend⟩
  · obtain ⟨hreads, hcs⟩ := hshows.span (Prod.eta (shown.span pool')).symm
    rw [hspan]
    refine ⟨hreads.shows.lags (hreads.isFixed.trans hstreams) h.le_length, fun cs he => ?_⟩
    obtain ⟨hpre, -, hend⟩ := hcs cs he
    rw [hcursor, List.drop_drop, Nat.add_comm] at hpre
    refine ⟨hpre, fun hnil => ?_⟩
    have hlength := hend hnil
    have hle := h.le_length
    rw [hcursor, List.length_drop] at hlength
    omega

end Lags

/-! ### Any sequence of events -/

omit [FaithfulSource σ] in
theorem Call.supply_after {call : Call} (hc : call ≠ .span) (s : Window σ × Pool) :
    (call.after s).1.supply = s.1.supply := by
  obtain ⟨w, pool⟩ := s
  cases call with
  | span => exact absurd rfl hc
  | advance | openLoop | elsewhere => rfl
  | seek offset =>
    simp only [after]
    cases hw : w.seek offset with
    | ok w' => rw [eq_of_seek hw]
    | error e => rfl
  | closeLoop =>
    simp only [after, Window.closeLoop, Window.trim]
    split <;> simp
  | trim =>
    simp only [after, Window.trim]
    split <;> rfl

omit [CharSource σ] [FaithfulSource σ] in
theorem trim_of_empty (hn : w.segments = []) (pool : Pool) : (w.trim pool).1 = w := by
  obtain ⟨supply, segments, cursor, growth⟩ := w
  subst hn
  unfold Window.trim
  split <;> rfl

omit [CharSource σ] [FaithfulSource σ] in
theorem closeLoop_of_empty (hn : w.segments = []) (pool : Pool) :
    (w.closeLoop pool).1 = { w with growth := w.growth - 1 } := by
  obtain ⟨supply, segments, cursor, growth⟩ := w
  obtain rfl : segments = [] := hn
  match growth with
  | 0 => rfl
  | 1 => exact trim_of_empty rfl pool
  | growth + 2 => rfl

namespace Event
variable {s : Window σ × Pool} {event : Event}

/-- A window that shows a text still does so, also if a loop is closed that was not open. -/
theorem shows_after (h : s.1.Shows text) {call : Call}
    (ha : (Event.call call).allowed s.1 = true) : (call.after s).1.Shows text := by
  cases call with
  | closeLoop => exact h.closeLoop s.2
  | advance count => exact Call.shows_after h ha
  | _ => exact Call.shows_after h rfl

omit [CharSource σ] [FaithfulSource σ] in
theorem lostBy_of_ne_nil (hn : w.segments ≠ []) (call : Call) : (Event.call call).lostBy w = 0 := by
  cases call <;> simp [lostBy, hn]

/-- Without segments, only a call that reads makes one, and only moving the cursor back loses
anything. -/
theorem lags_after_of_empty {pool : Pool} (h : w.Lags text lag) (hn : w.segments = []) {call : Call}
    (hspan : call ≠ .span) (ha : (Event.call call).allowed w = true) :
    (call.after (w, pool)).1.Lags text (lag + (Event.call call).lostBy w) := by
  have hstop : w.residentStop = w.cursor := by simp [residentStop, hn]
  have hstart : w.residentStart = 0 := by simp [residentStart, hn]
  have hsupply := Call.supply_after hspan (w, pool)
  cases call with
  | span => exact absurd rfl hspan
  | advance count =>
    have hcount : count = 0 := by simpa [allowed, Call.allowed, rest?, hn] using ha
    subst hcount
    exact h.of_empty rfl hn (by simp [Call.after, advance, lostBy, hstop])
  | seek offset =>
    by_cases hle : offset ≤ w.cursor
    · have hseek : w.seek offset = .ok { w with cursor := offset } :=
        if_pos ⟨hstart ▸ Nat.zero_le _, hstop ▸ hle⟩
      simp only [Call.after, hseek]
      refine h.of_empty rfl hn ?_
      simp only [lostBy, if_pos hn, hstop]
      omega
    · have hseek : w.seek offset = .error (.position offset w.residentStart w.residentStop) :=
        if_neg fun hc => hle (hstop ▸ hc.2)
      have hlost : w.cursor - offset = 0 := by omega
      simp only [Call.after, hseek, lostBy, if_pos hn, hlost]
      exact h
  | openLoop => exact h.of_empty hsupply hn (by simp [Call.after, openLoop, lostBy, hstop])
  | closeLoop =>
    simp only [Call.after, closeLoop_of_empty hn]
    exact h.of_empty rfl hn (by simp [lostBy, hstop])
  | trim =>
    simp only [Call.after, trim_of_empty hn]
    exact h
  | elsewhere => exact h

/-- **What an event takes from a window** is what puts it behind. -/
theorem lags_after (h : s.1.Lags text lag) (ha : event.allowed s.1 = true) :
    (event.after s).1.Lags text (lag + event.lostBy s.1) := by
  obtain ⟨w, pool⟩ := s
  cases event with
  | release =>
    refine h.of_empty rfl rfl ?_
    have hle : w.cursor ≤ w.residentStop := h.cursor_le
    show w.cursor + (lag + (w.residentStop - w.cursor)) = w.residentStop + lag
    omega
  | call call =>
    by_cases hspan : call = .span
    · subst hspan
      exact (h.span pool).1
    by_cases hn : w.segments = []
    · exact lags_after_of_empty h hn hspan ha
    · rw [lostBy_of_ne_nil hn, Nat.add_zero]
      refine (shows_after (h.shows hn) ha).lags ?_ h.le_length
      rw [isFixed, Call.supply_after hspan]
      exact h.streams

theorem lags_afterAll (events : List Event) (h : s.1.Lags text lag)
    (ha : allAllowed s events = true) :
    (afterAll s events).1.Lags text (lag + lost s events) := by
  induction events generalizing s lag with
  | nil => exact h
  | cons event events ih =>
    simp only [allAllowed, Bool.and_eq_true] at ha
    have hlags := ih (lags_after h ha.1) ha.2
    rw [Nat.add_assoc] at hlags
    exact hlags

end Event

/-! ### What a window tells -/

/-- What a window tells that is so far behind its source. -/
structure Trails (text : List Char) (lag : Nat) (w : Window σ) (pool : Pool) : Prop where
  /-- The cursor can be moved to a character at hand and behind the last of them. If there is nothing
  at hand, it can be moved to any place in front of it. -/
  seek_iff : ∀ offset, (∃ w', w.seek offset = .ok w') ↔
    (∃ s ∈ w.segments, s.holds offset = true) ∨ offset = w.residentStop ∨
      w.segments = [] ∧ offset < w.cursor
  /-- Nothing else is moved. -/
  of_seek : ∀ offset w', w.seek offset = .ok w' → w' = { w with cursor := offset }
  /-- A place that it cannot be moved to is named, with what is at hand, and nothing changes. -/
  of_refused : ∀ offset e, w.seek offset = .error e →
    e = .position offset w.residentStart w.residentStop ∧
      (Call.seek offset).after (w, pool) = (w, pool)
  /-- Characters are those that lie so far behind the cursor in the text, none only at its end. -/
  span : ∀ cs, (w.span pool).1 = .ok cs →
    cs <+: text.drop (w.cursor + lag) ∧ (cs = [] → w.cursor + lag = text.length)

theorem Lags.seek_iff (h : w.Lags text lag) (offset : Nat) :
    (∃ w', w.seek offset = .ok w') ↔
      (∃ s ∈ w.segments, s.holds offset = true) ∨ offset = w.residentStop ∨
        w.segments = [] ∧ offset < w.cursor := by
  have hseek : (∃ w', w.seek offset = .ok w') ↔
      w.residentStart ≤ offset ∧ offset ≤ w.residentStop := by
    by_cases hin : w.residentStart ≤ offset ∧ offset ≤ w.residentStop <;> simp [seek, hin]
  rw [hseek]
  by_cases hn : w.segments = []
  · simp [residentStart, residentStop, hn]
    omega
  · have hshows := h.shows hn
    have hle := hshows.tiled.start_le
    constructor
    · rintro ⟨hstart, hstop⟩
      rcases Nat.lt_or_eq_of_le hstop with hlt | heq
      · exact .inl (hshows.tiled.exists_holds hstart hlt)
      · exact .inr (.inl heq)
    · rintro (⟨s, hm, hs⟩ | rfl | ⟨hnil, -⟩)
      · obtain ⟨-, hstart, hstop⟩ := hshows.tiled.of_mem hm
        simp only [Segment.holds, Bool.and_eq_true, decide_eq_true_eq] at hs
        omega
      · exact ⟨hle, Nat.le_refl _⟩
      · exact absurd hnil hn

theorem Lags.trails (h : w.Lags text lag) (pool : Pool) : w.Trails text lag pool where
  seek_iff := h.seek_iff
  of_seek _ _ := eq_of_seek
  of_refused offset e he := by
    refine ⟨?_, by simp only [Call.after, he]⟩
    unfold seek at he
    split at he
    · cases he
    · cases he
      rfl
  span := (h.span pool).2

/-- **A window is behind its source by just what it lost**, after whatever happened to it. As long as
nothing is lost, what it gives is the text at its cursor; and the cursor can be moved to what is at hand
only, unless that is nothing. -/
theorem trails_of_events (source : σ) (size : Nat) (pool : Pool) (events : List Event)
    (h : Event.allAllowed (streaming source size, pool) events = true) :
    (Event.afterAll (streaming source size, pool) events).1.Trails (FaithfulSource.rest source)
      (Event.lost (streaming source size, pool) events)
      (Event.afterAll (streaming source size, pool) events).2 := by
  have hlags := Event.lags_afterAll events (lags_streaming source size) h
  rw [Nat.zero_add] at hlags
  exact hlags.trails _

/-- Two characters were read and not passed over when the segments were given back, and then the cursor
was moved back by one. -/
theorem trails_of_events_lost :
    let source : FlakySource := ⟨"abcdefgh".toList, []⟩
    let start : Window FlakySource × Pool := (streaming source 4, ⟨[], 1, 0⟩)
    let events : List Event :=
      [.call .span, .call (.advance 2), .release, .call (.seek 1), .call .span, .call .openLoop]
    Event.allAllowed start events = true ∧ Event.lost start events = 3 ∧
      (Event.afterAll start events).1.Trails "abcdefgh".toList 3
        (Event.afterAll start events).2 := by
  intro source start events
  have h : Event.allAllowed start events = true := by decide +kernel
  have hlost : Event.lost start events = 3 := by decide +kernel
  have htrails := trails_of_events source 4 ⟨[], 1, 0⟩ events h
  rw [hlost] at htrails
  exact ⟨h, hlost, htrails⟩

/-- So a window whose segments were given back can be moved to a place that is not at hand, and what it
gives is not the text at its cursor. -/
theorem not_trails_of_release :
    let source : FlakySource := ⟨"abcdef".toList, []⟩
    let start : Window FlakySource × Pool := (streaming source 4, ⟨[], 1, 0⟩)
    let events : List Event := [.call .span, .call (.advance 2), .release]
    let w := (Event.afterAll start events).1
    Event.allAllowed start events = true ∧ w.cursor = 2 ∧
      (¬∀ offset w', w.seek offset = .ok w' →
        (∃ s ∈ w.segments, s.start ≤ offset ∧ offset ≤ s.stop) ∨ offset = w.cursor) ∧
      ¬∀ cs, (w.span (Event.afterAll start events).2).1 = .ok cs → cs <+: "abcdef".toList.drop 2 := by
  intro source start events w
  have hsegments : w.segments = [] := by decide +kernel
  have hcursor : w.cursor = 2 := by decide +kernel
  refine ⟨by decide +kernel, hcursor, fun h => ?_, fun h => ?_⟩
  · have hseek : w.seek 0 = .ok { w with cursor := 0 } := by
      simp [seek, residentStart, hsegments]
    rcases h 0 _ hseek with ⟨s, hs, -⟩ | hc
    · simp [hsegments] at hs
    · omega
  · have hspan : (w.span (Event.afterAll start events).2).1.toOption = some "ef".toList := by
      decide +kernel
    cases hcs : (w.span (Event.afterAll start events).2).1 with
    | error e => simp [hcs, Except.toOption] at hspan
    | ok cs =>
      obtain rfl : cs = "ef".toList := by simpa [hcs, Except.toOption] using hspan
      exact absurd (h _ hcs) (by decide)

end Stencil.Window
