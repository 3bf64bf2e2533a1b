import Stencil.Proofs.Accounting
import Stencil.Proofs.Depth

/-! What a window over a source keeps at hand.

While no loop is open, a window keeps one segment at most; while loops are open, it keeps the segment that
holds the end of the outermost loop's opening token, and what follows it. The difficulty is the moment at
which the outermost loop is closed: then the cursor has to be in the last segment, or segments behind it
would be kept. It is, because the last segment was begun no further on than the place where the loops
that are open end (`Retains.last`), and that place is the same from wherever the rendering goes on
(`Retains.way`). -/
namespace Stencil

/-! ### Windows -/

namespace Window
variable {σ : Type}

/-- The offset at which the last segment begins. -/
def lastStart (w : Window σ) : Nat :=
  match w.segments.getLast? with
  | some s => s.start
  | none => 0

theorem lastStart_concat {w : Window σ} {before : List Segment} {last : Segment}
    (h : w.segments = before ++ [last]) : w.lastStart = last.start := by
  rw [lastStart, h, List.getLast?_concat]

/-- The first segment holds the character at that offset. -/
def FrontHolds (w : Window σ) (offset : Nat) : Prop :=
  ∃ s, w.segments.head? = some s ∧ s.holds offset = true

/-- A window after its owner read on: nothing is kept that was not, nothing in front is lost that loops
may go back to, and a segment that was begun was begun at the cursor. -/
structure Draws (w w' : Window σ) : Prop where
  growth : w'.growth = w.growth
  cursor_le : w.cursor ≤ w'.cursor
  single : w.growth = 0 → w.segments.length ≤ 1 → w'.segments.length ≤ 1
  front : 0 < w.growth → ∀ offset, w.FrontHolds offset → w'.FrontHolds offset
  lastStart : w'.lastStart = w.lastStart ∨ w'.lastStart ≤ w'.cursor

namespace Draws
variable {w w' w'' : Window σ}

theorem refl (w : Window σ) : w.Draws w :=
  ⟨rfl, Nat.le_refl _, fun _ h => h, fun _ _ h => h, .inl rfl⟩

theorem trans (h : w.Draws w') (h' : w'.Draws w'') : w.Draws w'' where
  growth := h'.growth.trans h.growth
  cursor_le := Nat.le_trans h.cursor_le h'.cursor_le
  single hg hl := h'.single (h.growth.trans hg) (h.single hg hl)
  front hg offset hf := h'.front (h.growth ▸ hg) offset (h.front hg offset hf)
  lastStart := by
    rcases h'.lastStart with hsame | hle
    · rw [hsame]
      exact h.lastStart.imp_right fun hle => Nat.le_trans hle h'.cursor_le
    · exact .inr hle

theorem advance (h : w.Draws w') (count : Nat) : w.Draws (w'.advance count) :=
  h.trans ⟨rfl, Nat.le_add_right .., fun _ h => h, fun _ _ h => h, .inl rfl⟩

end Draws

/-- Room is made in the last segment, or in one that is begun at the cursor; it is begun in front of all
others unless loops are open. -/
theorem makeRoom_cases {w : Window σ} {size : Nat} {pool pool' : Pool} {before : List Segment}
    {last : Segment} (h : w.makeRoom size pool = (before, last, pool')) :
    w.segments = before ++ [last] ∨
      (last.start = w.cursor ∧
        ((before = [] ∧ (w.segments = [] ∨ w.growth = 0)) ∨
          (before = w.segments ∧ 0 < w.growth))) := by
  unfold makeRoom at h
  split at h
  · next hl =>
    cases h
    exact .inr ⟨rfl, .inl ⟨rfl, .inl (List.getLast?_eq_none_iff.1 hl)⟩⟩
  · next s hl =>
    obtain ⟨front, hs⟩ := List.getLast?_eq_some_iff.1 hl
    split at h
    · split at h
      · next hg =>
        cases h
        exact .inr ⟨rfl, .inl ⟨rfl, .inr hg⟩⟩
      · next hg =>
        cases h
        exact .inr ⟨rfl, .inr ⟨rfl, Nat.pos_of_ne_zero hg⟩⟩
    · cases h
      rw [hs, List.dropLast_concat]
      exact .inl rfl

theorem closeLoop_of_one {w : Window σ} (h : w.growth = 1) (pool : Pool) :
    w.closeLoop pool = trim { w with growth := 0 } pool := by
  obtain ⟨supply, segments, cursor, growth⟩ := w
  cases h
  rfl

theorem segments_closeLoop {w : Window σ} (h : 1 < w.growth) (pool : Pool) :
    (w.closeLoop pool).1.segments = w.segments := by
  unfold closeLoop
  split
  · rfl
  · omega
  · rfl

/-- Closing a loop begins no segment. -/
theorem lastStart_closeLoop (w : Window σ) (pool : Pool) :
    (w.closeLoop pool).1.lastStart = w.lastStart := by
  unfold closeLoop
  split
  · rfl
  · unfold trim lastStart
    rw [if_pos rfl]
    dsimp only
    rw [getLast?_dropBehind]
  · rfl

theorem lastStart_follow (w : Window σ) (kind : Token.Kind) (action : Action) (pool : Pool) :
    (Rendering.follow w kind action pool).1.lastStart = w.lastStart := by
  unfold Rendering.follow
  split
  · rfl
  · split
    · exact w.lastStart_closeLoop pool
    · rfl

/-- A segment that gets more characters still holds those that it held. -/
theorem holds_append {s : Segment} {offset : Nat} (h : s.holds offset = true) (cs : List Char) :
    ({ s with text := s.text ++ cs } : Segment).holds offset = true := by
  simp only [Segment.holds, Bool.and_eq_true, decide_eq_true_eq] at h ⊢
  have hstop : s.stop ≤ ({ s with text := s.text ++ cs } : Segment).stop := by
    simp only [Segment.stop, List.length_append]
    omega
  exact ⟨h.1, Nat.lt_of_lt_of_le h.2 hstop⟩

variable [CharSource σ]

theorem draws_fill {w w' : Window σ} {pool pool' : Pool} {result : Except RenderError Bool}
    (h : w.fill pool = (result, w', pool')) : w.Draws w' := by
  rcases fill_cases h with ⟨_, _, rfl⟩ | ⟨_, _, _, _, rfl⟩ |
    ⟨source, size, before, last, answer, source', _, hm, _, hcase⟩
  · exact .refl w'
  · exact .refl w'
  · have hfilled : ∀ ended cs, w.Draws (w.filled before last source' size ended cs) := by
      intro ended cs
      have hlast : (w.filled before last source' size ended cs).lastStart =
          ({ last with text := last.text ++ cs } : Segment).start := lastStart_concat rfl
      rcases makeRoom_cases hm with hs | ⟨hstart, ⟨rfl, hor⟩ | ⟨rfl, hg⟩⟩
      · refine ⟨rfl, Nat.le_refl _, fun _ hl => ?_, fun _ offset => ?_,
          .inl (hlast.trans (lastStart_concat hs).symm)⟩
        · rw [hs] at hl
          simpa [filled] using hl
        · rintro ⟨s, hhead, hholds⟩
          rw [hs] at hhead
          cases before with
          | nil =>
            cases hhead
            exact ⟨_, rfl, holds_append hholds cs⟩
          | cons first rest => exact ⟨s, hhead, hholds⟩
      · refine ⟨rfl, Nat.le_refl _, fun _ _ => Nat.le_refl 1, fun hg offset => ?_,
          .inr (Nat.le_of_eq (hlast.trans hstart))⟩
        rintro ⟨s, hhead, _⟩
        rcases hor with hnone | hzero
        · rw [hnone] at hhead
          cases hhead
        · omega
      · refine ⟨rfl, Nat.le_refl _, fun hzero => absurd hzero (Nat.ne_of_gt hg),
          fun _ offset => ?_, .inr (Nat.le_of_eq (hlast.trans hstart))⟩
        rintro ⟨s, hhead, hholds⟩
        refine ⟨s, ?_, hholds⟩
        show (w.segments ++ _).head? = some s
        rw [List.head?_append, hhead]
        rfl
    rcases hcase with ⟨e, _, _, rfl⟩ | ⟨_, _, rfl⟩ | ⟨c, cs, _, _, rfl⟩
    · exact hfilled false []
    · exact hfilled true []
    · exact hfilled false (c :: cs)

theorem draws_span (w : Window σ) (pool : Pool) : w.Draws (w.span pool).2.1 := by
  fun_induction Window.span w pool with
  | case1 w => exact .refl w
  | case2 w pool hr w₁ pool₁ hf ih => exact (draws_fill hf).trans ih
  | case3 w pool hr w₁ pool₁ hf => exact draws_fill hf
  | case4 w pool hr e w₁ pool₁ hf => exact draws_fill hf

variable [FaithfulSource σ] {text : List Char} {w : Window σ}

/-- A window of one segment holds the character in front of the cursor, if it has it. -/
theorem Shows.frontHolds (h : w.Shows text) (hl : w.segments.length ≤ 1)
    (hc : w.residentStart < w.cursor) : w.FrontHolds (w.cursor - 1) := by
  cases hs : w.segments with
  | nil =>
    have := h.fresh hs
    omega
  | cons s rest =>
    rw [hs] at hl
    have hrest : rest = [] := List.eq_nil_of_length_eq_zero (by simpa using hl)
    subst hrest
    have hstart : w.residentStart = s.start := by rw [residentStart, hs]; rfl
    have hstop : w.residentStop = s.stop := residentStop_concat w (show w.segments = [] ++ [s] from hs)
    have hle := h.le_stop
    refine ⟨s, by rw [hs]; rfl, ?_⟩
    simp only [Segment.holds, Bool.and_eq_true, decide_eq_true_eq]
    omega

/-- Behind a cursor in the last segment nothing is kept. -/
theorem length_dropBehind_le {start stop offset : Nat} {before : List Segment} {last : Segment}
    (h : Tiles text start (before ++ [last]) stop) (ho : last.start ≤ offset) :
    (dropBehind offset (before ++ [last])).length ≤ 1 := by
  induction before generalizing start with
  | nil => exact Nat.le_refl 1
  | cons s before ih =>
    obtain ⟨_, _, hrest⟩ := h
    have hstop : s.stop ≤ offset := Nat.le_trans (Tiles.concat_iff.1 hrest).1.start_le ho
    cases hb : before ++ [last] with
    | nil => exact absurd hb (by simp)
    | cons t more =>
      rw [List.cons_append, hb, dropBehind, if_pos hstop, ← hb]
      exact ih hrest

theorem Shows.length_trim_le (h : w.Shows text) (hg : w.growth = 0) (hl : w.lastStart ≤ w.cursor)
    (pool : Pool) : (w.trim pool).1.segments.length ≤ 1 := by
  rw [Window.trim, if_pos hg]
  show (Window.dropBehind w.cursor w.segments).length ≤ 1
  cases hlast : w.segments.getLast? with
  | none =>
    rw [List.getLast?_eq_none_iff.1 hlast]
    exact Nat.zero_le 1
  | some last =>
    obtain ⟨before, hs⟩ := List.getLast?_eq_some_iff.1 hlast
    have htiled := h.tiled
    rw [lastStart_concat hs] at hl
    rw [hs] at htiled ⊢
    exact length_dropBehind_le htiled hl

end Window

/-! ### Open loops -/

namespace Frames

/-- The outermost of the open loops. -/
def outermostLoop? (frames : Frames) : Option Frame :=
  frames.reverse.find? (·.kind.isLoop)

theorem outermostLoop?_cons (frame : Frame) (below : Frames) :
    outermostLoop? (frame :: below) =
      below.outermostLoop?.or (if frame.kind.isLoop then some frame else none) := by
  rw [outermostLoop?, outermostLoop?, List.reverse_cons, List.find?_append]
  congr 1
  cases h : frame.kind.isLoop with
  | true => exact List.find?_cons_of_pos h
  | false => exact List.find?_cons_of_neg (by rw [h]; exact Bool.false_ne_true)

theorem outermostLoop?_eq_none_iff {frames : Frames} :
    frames.outermostLoop? = none ↔ frames.loops = 0 := by
  rw [outermostLoop?, loops, List.find?_eq_none, List.countP_eq_zero]
  simp only [List.mem_reverse]

theorem outermostLoop?_of_not_isLoop {frame : Frame} (h : frame.kind.isLoop = false)
    (below : Frames) : outermostLoop? (frame :: below) = below.outermostLoop? := by
  rw [outermostLoop?_cons, h]
  exact Option.or_none

/-- What a token that starts no loop over does to the open loops. -/
inductive LoopStep (token : Token) : (frames frames' : Frames) → Prop
  | opens {frames : Frames} {frame : Frame} (hk : token.kind.isLoop = true)
      (hf : frame.token = token) : LoopStep token frames (frame :: frames)
  | closes {top : Frame} {below : Frames} (hk : token.kind.isLoopClose = true)
      (ht : top.kind.isLoop = true) : LoopStep token (top :: below) below
  | keeps {frames frames' : Frames} (hl : token.kind.isLoop = false)
      (hc : token.kind.isLoopClose = false) (ho : frames'.outermostLoop? = frames.outermostLoop?) :
      LoopStep token frames frames'

theorem loopStep_of_frameStep {token : Token} {level resume : Nat} {frames frames' : Frames}
    {resolution : Resolution} (h : FrameStep token level resume frames resolution frames')
    (ha : resolution.action ≠ .again) : LoopStep token frames frames' := by
  have hopens : ∀ frame : Frame, frame.token = token → token.kind.isOpening = true →
      LoopStep token frames (frame :: frames) := by
    intro frame hf ho
    by_cases hl : token.kind.isLoop = true
    · exact .opens hl hf
    · have hl : token.kind.isLoop = false := Bool.eq_false_iff.2 hl
      refine .keeps hl (Token.Kind.isLoopClose_of_isOpening ho) ?_
      exact outermostLoop?_of_not_isLoop (by rw [Frame.kind, hf]; exact hl) frames
  cases h with
  | written hw =>
    obtain ⟨hl, hc⟩ := Token.Kind.isLoop_of_isWritten hw
    exact .keeps hl hc rfl
  | defined hk => exact .keeps (by rw [hk]; rfl) (by rw [hk]; rfl) rfl
  | skipped hs ho => exact hopens _ rfl ho
  | ifOpened truthy hs hk => exact hopens _ rfl (by rw [hk]; rfl)
  | whileOpened truthy hs hk => exact hopens _ rfl (by rw [hk]; rfl)
  | eachEmpty hs hk => exact hopens _ rfl (by rw [hk]; rfl)
  | eachOpened items hs hk => exact hopens _ rfl (by rw [hk]; rfl)
  | elseMarked hk ht hl =>
    have hnone : token.kind.isLoop = false := by rw [hk]; rfl
    exact .keeps hnone (by rw [hk]; rfl) (outermostLoop?_of_not_isLoop (by exact hnone) _)
  | ifClosed hk ht hl =>
    exact .keeps (by rw [hk]; rfl) (by rw [hk]; rfl)
      (outermostLoop?_of_not_isLoop (by rw [ht]; rfl) _).symm
  | elseClosed hk hm hml ht hl =>
    refine .keeps (by rw [hk]; rfl) (by rw [hk]; rfl) ?_
    rw [outermostLoop?_of_not_isLoop (by rw [hm]; rfl),
      outermostLoop?_of_not_isLoop (by rw [ht]; rfl)]
  | loopClosed hk hl => exact .closes hk.isLoopClose hk.isLoop
  | loopAgain => exact absurd rfl ha

/-- A token puts a block on the others, which can be started over behind that token at most, or takes
some away. -/
theorem suffix_of_frameStep {token : Token} {level resume : Nat} {frames frames' : Frames}
    {resolution : Resolution} (h : FrameStep token level resume frames resolution frames')
    (ha : resolution.action ≠ .again) :
    frames' <:+ frames ∨
      ∃ frame, frames' = frame :: frames ∧ ∀ offset, frame.resume = some offset → offset = resume := by
  cases h with
  | written hw => exact .inl List.suffix_rfl
  | defined hk => exact .inl List.suffix_rfl
  | skipped hs ho => exact .inr ⟨_, rfl, nofun⟩
  | ifOpened truthy hs hk => exact .inr ⟨_, rfl, nofun⟩
  | whileOpened truthy hs hk => exact .inr ⟨_, rfl, fun _ ho => (Option.some.inj ho).symm⟩
  | eachEmpty hs hk => exact .inr ⟨_, rfl, nofun⟩
  | eachOpened items hs hk => exact .inr ⟨_, rfl, fun _ ho => (Option.some.inj ho).symm⟩
  | elseMarked hk ht hl => exact .inr ⟨_, rfl, nofun⟩
  | ifClosed hk ht hl => exact .inl (List.suffix_cons ..)
  | elseClosed hk hm hml ht hl =>
    exact .inl ((List.suffix_cons ..).trans (List.suffix_cons ..))
  | loopClosed hk hl => exact .inl (List.suffix_cons ..)
  | loopAgain => exact absurd rfl ha

/-- The blocks below are the outermost ones. -/
theorem outermostLoop?_cons_of_some {frame top : Frame} {below : Frames}
    (h : below.outermostLoop? = some frame) : outermostLoop? (top :: below) = some frame := by
  rw [outermostLoop?_cons, h]
  rfl

/-- A block without a place to go back to is the same block, whatever it is bound to next. -/
theorem outermostLoop?_withItems {top frame : Frame} {items : Option (List String)} {below : Frames}
    (h : outermostLoop? ({ top with items } :: below) = some frame) :
    ∃ frame', outermostLoop? (top :: below) = some frame' ∧ frame'.token = frame.token := by
  rw [outermostLoop?_cons] at h ⊢
  cases hb : below.outermostLoop? with
  | some inner =>
    rw [hb] at h
    cases h
    exact ⟨_, rfl, rfl⟩
  | none =>
    rw [hb, Option.none_or] at h
    rw [Option.none_or]
    by_cases hl : top.kind.isLoop = true
    · rw [if_pos (show ({ top with items } : Frame).kind.isLoop = true from hl)] at h
      cases h
      exact ⟨top, if_pos hl, rfl⟩
    · rw [if_neg (show ¬({ top with items } : Frame).kind.isLoop = true from hl)] at h
      cases h

end Frames

/-! ### What is kept -/

/-- A window over a source keeps what the loops `own` may need, and nothing else. `next` tells the token
ahead of a place, and `opened` at which offset a token was passed. -/
structure Retains {σ : Type} (next : Nat → Option (Token.Kind × Nat)) (opened : Nat → Nat → Prop)
    (own : Frames) (w : Window σ) : Prop where
  single : own.loops = 0 → w.segments.length ≤ 1
  /-- The first segment holds the last character of the token that opened the outermost loop. -/
  front : ∀ frame, own.outermostLoop? = some frame → ∃ offset, opened frame.token.id offset ∧
    0 < offset ∧ w.FrontHolds (offset - 1)
  /-- No segment was begun behind the place where the open loops end. -/
  last : ∀ stop, Leaves next w.cursor own.inLoop stop → w.lastStart ≤ stop
  /-- Which is the same from wherever the rendering goes on. -/
  way : ∀ frame below, frame :: below <:+ own → ∀ offset, frame.resume = some offset →
    ∀ stop, Leaves next offset (Frames.inLoop (frame :: below)) stop ↔
      Leaves next w.cursor own.inLoop stop

namespace Retains
variable {σ : Type} {next : Nat → Option (Token.Kind × Nat)} {opened : Nat → Nat → Prop}
  {own own' : Frames} {w w' : Window σ} {kind : Token.Kind}

theorem fresh (w : Window σ) (hl : w.segments = []) : Retains next opened [] w where
  single _ := by rw [hl]; exact Nat.zero_le 1
  front := nofun
  last stop _ := by rw [Window.lastStart, hl]; exact Nat.zero_le stop
  way frame below h := nomatch List.eq_nil_of_suffix_nil h

/-- Nor was one begun while the next token was read. -/
theorem lastStart_le (h : Retains next opened own w) (hd : w.Draws w')
    (hlt : ∀ {cursor kind cursor'}, next cursor = some (kind, cursor') → cursor < cursor')
    (hn : next w.cursor = some (kind, w'.cursor)) (hpos : 0 < own.inLoop) {stop : Nat}
    (hs : Leaves next w.cursor own.inLoop stop) : w'.lastStart ≤ stop := by
  rcases hd.lastStart with hsame | hle
  · rw [hsame]
    exact h.last stop hs
  · exact Nat.le_trans hle (((Leaves.iff_of_next hn hpos).1 hs).cursor_le hlt)

/-- A loop that starts over. -/
theorem again {top : Frame} {below : Frames} {offset : Nat}
    (h : Retains next opened (top :: below) w) (hd : w.Draws w')
    (hg : w.growth = Frames.loops (top :: below))
    (hlt : ∀ {cursor kind cursor'}, next cursor = some (kind, cursor') → cursor < cursor')
    (hn : next w.cursor = some (kind, w'.cursor)) (hk : top.kind.isLoop = true)
    (ho : top.resume = some offset) (items : Option (List String)) :
    Retains next opened ({ top with items } :: below) { w' with cursor := offset } := by
  have hdepth : 0 < Frames.inLoop (top :: below) := by
    rw [Frames.inLoop_of_isLoop hk]
    exact Nat.succ_pos _
  have hloops : 0 < Frames.loops (top :: below) := Frames.inLoop_pos_iff.1 hdepth
  have hway := h.way top below List.suffix_rfl offset ho
  refine ⟨fun hnone => ?_, fun frame hf => ?_, fun stop hs => ?_, fun frame rest hsuffix o hr stop => ?_⟩
  · exact absurd hnone (Nat.ne_of_gt hloops)
  · obtain ⟨frame', hf', ht⟩ := Frames.outermostLoop?_withItems hf
    obtain ⟨o, hopened, hpos, hfront⟩ := h.front frame' hf'
    rw [ht] at hopened
    exact ⟨o, hopened, hpos, hd.front (hg ▸ hloops) _ hfront⟩
  · exact h.lastStart_le hd hlt hn hdepth ((hway stop).1 hs)
  · rw [Frames.inLoop_withItems]
    rcases List.suffix_cons_iff.1 hsuffix with heq | hsuffix
    · cases heq
      have ho' : top.resume = some o := hr
      rw [ho] at ho'
      cases ho'
      exact Iff.rfl
    · exact (h.way frame rest (hsuffix.trans (List.suffix_cons ..)) o hr stop).trans (hway stop).symm

section Token
variable [CharSource σ] [FaithfulSource σ] {text : List Char} {token : Token} {level : Nat}
  {resolution : Resolution}

/-- What the window keeps once it was told of a token, if no segment was begun behind that token where no
loop is open any more. -/
theorem kept_follow (h : Retains next opened own w) (hd : w.Draws w') (hg : w.growth = own.loops)
    (hs : w'.Shows text) (hpast : w'.residentStart < w'.cursor) (ho : opened token.id w'.cursor)
    (hlast : own'.loops = 0 → w'.lastStart ≤ w'.cursor) (hstep : Frames.LoopStep token own own')
    (action : Action) (ha : action ≠ .again) (pool : Pool) :
    let kept := (Rendering.follow w' token.kind action pool).1
    (own'.loops = 0 → kept.segments.length ≤ 1) ∧
      ∀ frame, own'.outermostLoop? = some frame → ∃ offset, opened frame.token.id offset ∧
        0 < offset ∧ kept.FrontHolds (offset - 1) := by
  intro kept
  -- What was in front of the token and is still in front of it.
  have hfront : ∀ frame, own.outermostLoop? = some frame → ∃ offset, opened frame.token.id offset ∧
      0 < offset ∧ w'.FrontHolds (offset - 1) := by
    intro frame hf
    obtain ⟨offset, hopened, hpos, hholds⟩ := h.front frame hf
    have hloops : own.loops ≠ 0 := fun hn => by
      rw [Frames.outermostLoop?_eq_none_iff.2 hn] at hf
      cases hf
    exact ⟨offset, hopened, hpos, hd.front (hg ▸ Nat.pos_of_ne_zero hloops) _ hholds⟩
  have hsingle : own.loops = 0 → w'.segments.length ≤ 1 := fun hn =>
    hd.single (hg.trans hn) (h.single hn)
  cases hstep with
  | @opens _ frame hk hf =>
    have hkept : kept = w'.openLoop := by
      show (Rendering.follow w' token.kind action pool).1 = _
      rw [Rendering.follow, if_pos hk]
    have hloop : frame.kind.isLoop = true := by rw [Frame.kind, hf]; exact hk
    refine ⟨fun hn => ?_, fun outermost hout => ?_⟩
    · rw [Frames.loops_cons, if_pos hloop] at hn
      omega
    · rw [hkept]
      cases hown : own.outermostLoop? with
      | some frame' =>
        rw [Frames.outermostLoop?_cons_of_some hown] at hout
        cases hout
        exact hfront _ hown
      | none =>
        rw [Frames.outermostLoop?_cons, hown, if_pos hloop] at hout
        cases hout
        have hone := hsingle (Frames.outermostLoop?_eq_none_iff.1 hown)
        exact ⟨w'.cursor, hf ▸ ho, Nat.lt_of_le_of_lt (Nat.zero_le _) hpast,
          hs.frontHolds hone hpast⟩
  | @closes top _ hk ht =>
    have hkept : kept = (w'.closeLoop pool).1 := by
      show (Rendering.follow w' token.kind action pool).1 = _
      rw [Rendering.follow, Token.Kind.isLoop_of_isLoopClose hk, if_neg Bool.false_ne_true,
        if_pos ⟨hk, ha⟩]
    have hgrowth : w'.growth = own'.loops + 1 := by
      rw [hd.growth, hg, Frames.loops_cons, if_pos ht]
    refine ⟨fun hn => ?_, fun outermost hout => ?_⟩
    · have htrim : kept = (Window.trim { w' with growth := 0 } pool).1 := by
        rw [hkept, Window.closeLoop_of_one (by rw [hgrowth, hn])]
      have hshows : ({ w' with growth := 0 } : Window σ).Shows text :=
        ⟨hs.tiled, hs.start_le, hs.le_stop, hs.stop_le, hs.fresh, hs.full, hs.supplied⟩
      rw [htrim]
      exact hshows.length_trim_le rfl (hlast hn) pool
    · have hopen : own'.loops ≠ 0 := fun hn => by
        rw [Frames.outermostLoop?_eq_none_iff.2 hn] at hout
        cases hout
      have hsegments : kept.segments = w'.segments := by
        rw [hkept, Window.segments_closeLoop (by omega)]
      obtain ⟨offset, hopened, hpos, s, hhead, hholds⟩ :=
        hfront outermost (Frames.outermostLoop?_cons_of_some hout)
      exact ⟨offset, hopened, hpos, s, by rw [hsegments, hhead], hholds⟩
  | keeps hl hc hout =>
    have hkept : kept = w' := by
      show (Rendering.follow w' token.kind action pool).1 = _
      rw [Rendering.follow_of_other hl fun h => by rw [hc] at h; cases h]
    rw [hkept, hout]
    refine ⟨fun hn => hsingle ?_, hfront⟩
    rw [← Frames.outermostLoop?_eq_none_iff, ← hout]
    exact Frames.outermostLoop?_eq_none_iff.2 hn

/-- A token that starts no loop over. -/
theorem behind (h : Retains next opened own w) (hd : w.Draws w') (hg : w.growth = own.loops)
    (hlt : ∀ {cursor kind cursor'}, next cursor = some (kind, cursor') → cursor < cursor')
    (hn : next w.cursor = some (token.kind, w'.cursor)) (hs : w'.Shows text)
    (hpast : w'.residentStart < w'.cursor) (ho : opened token.id w'.cursor)
    (hloop : ∀ frame ∈ own, frame.resume ≠ none → frame.kind.isLoop = true)
    (hstep : FrameStep token level w'.cursor own resolution own') (ha : resolution.action ≠ .again)
    (pool : Pool) :
    Retains next opened own' (Rendering.follow w' token.kind resolution.action pool).1 := by
  have hbehind : ∀ stop, 0 < own.inLoop →
      (Leaves next w'.cursor own'.inLoop stop ↔ Leaves next w.cursor own.inLoop stop) := by
    intro stop hpos
    rw [Frames.inLoop_frameStep hstep ha hpos]
    exact (Leaves.iff_of_next hn hpos).symm
  have hlast : ∀ stop, Leaves next w'.cursor own'.inLoop stop → w'.lastStart ≤ stop := by
    intro stop hstop
    by_cases hpos : 0 < own.inLoop
    · exact h.lastStart_le hd hlt hn hpos ((hbehind stop hpos).1 hstop)
    · have hout : Leaves next w.cursor own.inLoop w.cursor := by
        rw [Nat.eq_zero_of_not_pos hpos]
        exact .out
      have hcursor : w'.lastStart ≤ w'.cursor := by
        rcases hd.lastStart with hsame | hle
        · rw [hsame]
          exact Nat.le_trans (h.last _ hout) hd.cursor_le
        · exact hle
      exact Nat.le_trans hcursor (hstop.cursor_le hlt)
  have hclosed : own'.loops = 0 → w'.lastStart ≤ w'.cursor := by
    intro hnone
    refine hlast _ ?_
    rw [Frames.inLoop_eq_zero_iff.2 hnone]
    exact .out
  obtain ⟨hsingle, hfront⟩ := h.kept_follow hd hg hs hpast ho hclosed
    (Frames.loopStep_of_frameStep hstep ha) resolution.action ha pool
  refine ⟨hsingle, hfront, fun stop hstop => ?_, fun frame below hsuffix offset hr stop => ?_⟩
  · rw [Rendering.follow_cursor] at hstop
    rw [Window.lastStart_follow]
    exact hlast stop hstop
  · rw [Rendering.follow_cursor]
    -- A block that was there before is a loop, so the way out is that of the blocks before the token.
    have hold : frame :: below <:+ own →
        (Leaves next offset (Frames.inLoop (frame :: below)) stop ↔
          Leaves next w'.cursor own'.inLoop stop) := by
      intro hsuffix
      have hmem : frame ∈ own := hsuffix.subset List.mem_cons_self
      have hpos : 0 < own.inLoop := Frames.inLoop_pos_iff.2
        (List.countP_pos_iff.2 ⟨frame, hmem, hloop frame hmem (by rw [hr]; nofun)⟩)
      exact (h.way frame below hsuffix offset hr stop).trans (hbehind stop hpos).symm
    rcases Frames.suffix_of_frameStep hstep ha with hsub | ⟨pushed, rfl, hresume⟩
    · exact hold (hsuffix.trans hsub)
    · rcases List.suffix_cons_iff.1 hsuffix with heq | hsuffix
      · cases heq
        rw [hresume offset hr]
      · exact hold hsuffix

end Token

end Retains

end Stencil
