import Stencil.Renderer
import Stencil.Proofs.Passage

/-! Loops go back to their beginnings.

The open blocks lie on one stack, those of a passage on top of those of the passages that it stands
in (`Stacked`). A passage is tracked if its window knows how many loops are open in it and still has
at hand the text behind the opening token of each (`Passage.Tracks`). Every step keeps this, whatever
callbacks do, so no loop that starts over is refused its place: unless a callback starts loops over
itself, no rendering fails for it (`placeKept_of_run`). -/
namespace Stencil

/-- How many loops are open. -/
def Frames.loops (frames : Frames) : Nat :=
  frames.countP (·.kind.isLoop)

namespace Frames

theorem loops_cons (frame : Frame) (frames : Frames) :
    loops (frame :: frames) = frames.loops + if frame.kind.isLoop then 1 else 0 :=
  List.countP_cons

/-- A top block at the level of the upper part belongs to that part. -/
theorem cons_of_append {own below rest : Frames} {top : Frame} {level : Nat}
    (h : own ++ below = top :: rest) (hl : top.level = level)
    (hb : ∀ frame ∈ below, frame.level < level) : ∃ more, own = top :: more ∧ rest = more ++ below := by
  cases own with
  | nil =>
    have := hb top (by rw [← List.nil_append below, h]; exact List.mem_cons_self)
    omega
  | cons frame more =>
    obtain ⟨rfl, hr⟩ := List.cons.inj h
    exact ⟨more, rfl, hr.symm⟩

end Frames

/-- In front of the offset stands the token that opened the frame. -/
def Frame.OpenedAt (g : Token.Grammar) (text : List Char) (frame : Frame) (offset : Nat) : Prop :=
  ∃ front raw, text.take offset = front ++ g.left ++ (raw ++ g.right) ∧
    g.classify frame.token.id raw = .ok frame.token

/-- What is true of a block of a passage that has its text from `start` to `stop` at hand. -/
structure Frame.Placed (g : Token.Grammar) (text : List Char) (start stop level : Nat)
    (frame : Frame) : Prop where
  level_eq : frame.level = level
  /-- A loop that is rendered can be started over. -/
  canResume : frame.kind.isLoop = true → frame.truthy = true → frame.resume ≠ none
  /-- Only loops can. -/
  isLoop : frame.resume ≠ none → frame.kind.isLoop = true
  /-- Their beginnings are at hand. -/
  atHand : ∀ offset, frame.resume = some offset →
    start ≤ offset ∧ offset ≤ stop ∧ frame.OpenedAt g text offset

/-- The window on a passage keeps up with the blocks of the passage. -/
structure Passage.Tracks {σ : Type} [CharSource σ] [FaithfulSource σ] (g : Token.Grammar)
    (text : List Char) (own : Frames) (p : Passage σ) : Prop where
  shows : p.window.Shows text
  growth : p.window.growth = own.loops
  placed : ∀ frame ∈ own,
    frame.Placed g text p.window.residentStart p.window.residentStop p.level

/-! ### One passage -/

namespace Passage
variable {σ : Type} [CharSource σ] [FaithfulSource σ] {g : Token.Grammar} {text : List Char}
  {own : Frames} {p : Passage σ}

/-- Reading on lets no block out of sight. -/
theorem Tracks.continues {w : Window σ} (h : p.Tracks g text own)
    (hw : p.window.Continues text w) : ({ p with window := w } : Passage σ).Tracks g text own where
  shows := hw.shows
  growth := hw.growth.trans h.growth
  placed frame hm := by
    have hf := h.placed frame hm
    refine ⟨hf.level_eq, hf.canResume, hf.isLoop, fun offset ho => ?_⟩
    obtain ⟨hs, ht, hopened⟩ := hf.atHand offset ho
    -- A block that can be started over is an open loop, so the window drops nothing.
    have hpos : 0 < p.window.growth := by
      rw [h.growth]
      exact List.countP_pos_iff.2 ⟨frame, hm, hf.isLoop (by rw [ho]; nofun)⟩
    rw [← hw.start_eq hpos] at hs
    exact ⟨hs, Nat.le_trans ht hw.stop_le, hopened⟩

/-- A loop can go back. -/
theorem Tracks.seek {frame : Frame} {offset : Nat} (h : p.Tracks g text own) (hm : frame ∈ own)
    (ho : frame.resume = some offset) :
    p.window.seek offset = .ok { p.window with cursor := offset } := by
  obtain ⟨hs, ht, _⟩ := (h.placed frame hm).atHand offset ho
  unfold Window.seek
  rw [if_pos ⟨hs, ht⟩]

/-- Moving the cursor lets no block out of sight either. -/
theorem Tracks.of_seek {w : Window σ} {offset : Nat} (h : p.Tracks g text own)
    (hw : p.window.seek offset = .ok w) :
    ({ p with window := w } : Passage σ).Tracks g text own := by
  have hshows := Window.Shows.seek h.shows hw
  unfold Window.seek at hw
  split at hw
  · next hr =>
    cases hw
    have hstop := h.shows.residentStop_withCursor hr.1 hr.2
    refine ⟨hshows, h.growth, fun frame hm => ?_⟩
    have hf := h.placed frame hm
    refine ⟨hf.level_eq, hf.canResume, hf.isLoop, fun offset' ho => ?_⟩
    show p.window.residentStart ≤ offset' ∧
      offset' ≤ ({ p.window with cursor := offset } : Window σ).residentStop ∧ _
    rw [hstop]
    exact hf.atHand offset' ho
  · cases hw

/-- A block is opened. -/
theorem Tracks.push {frame : Frame} (h : p.Tracks g text own)
    (hf : frame.Placed g text p.window.residentStart p.window.residentStop p.level) :
    ({ p with window := if frame.kind.isLoop then p.window.openLoop else p.window } :
      Passage σ).Tracks g text (frame :: own) := by
  have hall : ∀ f ∈ frame :: own,
      f.Placed g text p.window.residentStart p.window.residentStop p.level := by
    intro f hm
    rcases List.mem_cons.1 hm with rfl | hm
    · exact hf
    · exact h.placed f hm
  by_cases hk : frame.kind.isLoop = true
  · rw [if_pos hk]
    refine ⟨h.shows.openLoop, ?_, hall⟩
    rw [Frames.loops_cons, if_pos hk]
    exact congrArg (· + 1) h.growth
  · rw [if_neg hk]
    refine ⟨h.shows, ?_, hall⟩
    rw [Frames.loops_cons, if_neg hk]
    exact h.growth

/-- A block that is no loop is closed. -/
theorem Tracks.pop {frame : Frame} (h : p.Tracks g text (frame :: own))
    (hk : frame.kind.isLoop = false) : p.Tracks g text own where
  shows := h.shows
  growth := by
    have := h.growth
    rw [Frames.loops_cons, hk] at this
    exact this
  placed f hm := h.placed f (List.mem_cons_of_mem _ hm)

/-- A loop is closed. -/
theorem Tracks.close {frame : Frame} (h : p.Tracks g text (frame :: own))
    (hk : frame.kind.isLoop = true) (pool : Pool) :
    0 < p.window.growth ∧
      ({ p with window := (p.window.closeLoop pool).1 } : Passage σ).Tracks g text own := by
  have hgrowth := h.growth
  rw [Frames.loops_cons, if_pos hk] at hgrowth
  have hshows := h.shows.closeLoop pool
  refine ⟨by omega, ?_⟩
  unfold Window.closeLoop at hshows ⊢
  split at hshows
  · omega
  · next hone =>
    have hnone : own.loops = 0 := by omega
    refine ⟨hshows, ?_, fun f hm => ?_⟩
    · rw [hnone]
      show (Window.trim { p.window with growth := 0 } pool).1.growth = 0
      rfl
    · -- No loop is left, so no block is left that could be started over.
      have hf := h.placed f (List.mem_cons_of_mem _ hm)
      have hresume : f.resume = none := by
        by_cases hr : f.resume = none
        · exact hr
        · exact absurd (hf.isLoop hr) (List.countP_eq_zero.1 hnone f hm)
      refine ⟨hf.level_eq, hf.canResume, hf.isLoop, fun offset ho => ?_⟩
      rw [hresume] at ho
      cases ho
  · next growth hne heq =>
    refine ⟨hshows, ?_, fun f hm => h.placed f (List.mem_cons_of_mem _ hm)⟩
    show growth = own.loops
    omega

/-- A block with nothing to go back to. -/
theorem placed_of_no_resume {start stop level : Nat} {token : Token} {truthy live : Bool}
    (hk : token.kind.isLoop = true → truthy = false) :
    Frame.Placed g text start stop level { token, truthy, live, level } := by
  refine ⟨rfl, fun hl htr => ?_, fun hr => absurd rfl hr, nofun⟩
  rw [hk hl] at htr
  cases htr

/-- A loop that can go back to behind its token. -/
theorem Tracks.placed_cursor {token : Token} {truthy : Bool} {items : Option (List String)}
    {front raw : List Char} (h : p.Tracks g text own)
    (ht : text.take p.window.cursor = front ++ g.left ++ (raw ++ g.right))
    (hc : g.classify token.id raw = .ok token) (hk : token.kind.isLoop = true) :
    Frame.Placed g text p.window.residentStart p.window.residentStop p.level
      { token, truthy, live := true, level := p.level, resume := some p.window.cursor, items } := by
  refine ⟨rfl, nofun, fun _ => hk, fun offset ho => ?_⟩
  cases ho
  exact ⟨h.shows.start_le, h.shows.le_stop, front, raw, ht, hc⟩

/-- A token that closes no loop leaves the window to itself, unless it opens one. -/
theorem Tracks.follow_other {kind : Token.Kind} {action : Action} (h : p.Tracks g text own)
    (hl : kind.isLoop = false) (hclose : kind.isLoopClose = false) (pool : Pool) :
    ({ p with window := (Rendering.follow p.window kind action pool).1 } : Passage σ).Tracks g text
      own := by
  rw [Rendering.follow_of_other hl (by rw [hclose]; nofun)]
  exact h

/-- A token that opens a block. -/
theorem Tracks.follow_push {frame : Frame} {action : Action} (h : p.Tracks g text own)
    (hclose : frame.kind.isLoopClose = false)
    (hp : frame.Placed g text p.window.residentStart p.window.residentStop p.level) (pool : Pool) :
    ({ p with window := (Rendering.follow p.window frame.kind action pool).1 } : Passage σ).Tracks
      g text (frame :: own) := by
  have hpush := h.push hp
  by_cases hl : frame.kind.isLoop = true
  · rw [if_pos hl] at hpush
    rw [Rendering.follow, if_pos hl]
    exact hpush
  · rw [if_neg hl] at hpush
    rw [Rendering.follow_of_other (Bool.eq_false_iff.2 hl) (by rw [hclose]; nofun)]
    exact hpush

/-- A token that was read does its part, and the window follows. -/
theorem Tracks.frameStep {below frames : Frames} {token : Token} {resolution : Resolution}
    {front raw : List Char} (h : p.Tracks g text own)
    (hb : ∀ frame ∈ below, frame.level < p.level)
    (ht : text.take p.window.cursor = front ++ g.left ++ (raw ++ g.right))
    (hc : g.classify token.id raw = .ok token)
    (hstep : FrameStep token p.level p.window.cursor (own ++ below) resolution frames)
    (pool : Pool) :
    (token.kind.isLoopClose = true → resolution.action ≠ .again → 0 < p.window.growth) ∧
      ∃ own', frames = own' ++ below ∧
        ({ p with
          window := (Rendering.follow p.window token.kind resolution.action pool).1 } :
            Passage σ).Tracks g text own' := by
  generalize hf : own ++ below = frames₀ at hstep
  cases hstep with
  | written hw =>
    obtain ⟨hl, hclose⟩ := Token.Kind.isLoop_of_isWritten hw
    exact ⟨by rw [hclose]; nofun, own, hf.symm, h.follow_other hl hclose pool⟩
  | defined hk =>
    exact ⟨by rw [hk]; nofun, own, hf.symm,
      h.follow_other (by rw [hk]; rfl) (by rw [hk]; rfl) pool⟩
  | skipped hs hopen =>
    have hclose := Token.Kind.isLoopClose_of_isOpening hopen
    refine ⟨by rw [hclose]; nofun, _ :: own, by rw [← hf]; rfl, h.follow_push ?_ ?_ pool⟩
    · exact hclose
    · exact placed_of_no_resume fun _ => rfl
  | ifOpened truthy hs hk =>
    refine ⟨by rw [hk]; nofun, _ :: own, by rw [← hf]; rfl, h.follow_push ?_ ?_ pool⟩
    · exact congrArg Token.Kind.isLoopClose hk
    · exact placed_of_no_resume (by rw [hk]; nofun)
  | whileOpened truthy hs hk =>
    refine ⟨by rw [hk]; nofun, _ :: own, by rw [← hf]; rfl, h.follow_push ?_ ?_ pool⟩
    · exact congrArg Token.Kind.isLoopClose hk
    · exact h.placed_cursor ht hc (by rw [hk]; rfl)
  | eachEmpty hs hk =>
    refine ⟨by rw [hk]; nofun, _ :: own, by rw [← hf]; rfl, h.follow_push ?_ ?_ pool⟩
    · exact congrArg Token.Kind.isLoopClose hk
    · exact placed_of_no_resume fun _ => rfl
  | eachOpened items hs hk =>
    refine ⟨by rw [hk]; nofun, _ :: own, by rw [← hf]; rfl, h.follow_push ?_ ?_ pool⟩
    · exact congrArg Token.Kind.isLoopClose hk
    · exact h.placed_cursor ht hc (by rw [hk]; rfl)
  | elseMarked hk htop hl =>
    refine ⟨by rw [hk]; nofun, _ :: own, by rw [← hf]; rfl, h.follow_push ?_ ?_ pool⟩
    · exact congrArg Token.Kind.isLoopClose hk
    · exact placed_of_no_resume (by rw [hk]; nofun)
  | ifClosed hk htop hl =>
    obtain ⟨more, rfl, rfl⟩ := Frames.cons_of_append hf hl hb
    have hpop := h.pop (by rw [htop]; rfl)
    exact ⟨by rw [hk]; nofun, more, rfl,
      hpop.follow_other (by rw [hk]; rfl) (by rw [hk]; rfl) pool⟩
  | elseClosed hk hmark hml htop hl =>
    obtain ⟨more, rfl, hrest⟩ := Frames.cons_of_append hf hml hb
    obtain ⟨more', rfl, rfl⟩ := Frames.cons_of_append hrest.symm hl hb
    have hpop := (h.pop (by rw [hmark]; rfl)).pop (by rw [htop]; rfl)
    exact ⟨by rw [hk]; nofun, more', rfl,
      hpop.follow_other (by rw [hk]; rfl) (by rw [hk]; rfl) pool⟩
  | loopClosed hk hl =>
    obtain ⟨more, rfl, rfl⟩ := Frames.cons_of_append hf hl hb
    obtain ⟨hpos, htracks⟩ := h.close hk.isLoop pool
    refine ⟨fun _ _ => hpos, more, rfl, ?_⟩
    have hno := Token.Kind.isLoop_of_isLoopClose hk.isLoopClose
    rw [Rendering.follow, hno, if_neg Bool.false_ne_true, if_pos ⟨hk.isLoopClose, nofun⟩]
    exact htracks
  | loopAgain items hk hl htop hi =>
    rename_i top rest
    obtain ⟨more, rfl, rfl⟩ := Frames.cons_of_append hf hl hb
    have hno := Token.Kind.isLoop_of_isLoopClose hk.isLoopClose
    refine ⟨fun _ hn => absurd rfl hn, { top with items } :: more, rfl, ?_⟩
    have hfollow : Rendering.follow p.window token.kind Resolution.again.action pool =
        (p.window, pool) := Rendering.follow_of_other hno fun _ => rfl
    rw [hfollow]
    refine ⟨h.shows, ?_, fun frame hm => ?_⟩
    · rw [Frames.loops_cons]
      exact h.growth.trans (Frames.loops_cons ..)
    · rcases List.mem_cons.1 hm with rfl | hm
      · have hp := h.placed top List.mem_cons_self
        exact ⟨hp.level_eq, hp.canResume, hp.isLoop, hp.atHand⟩
      · exact h.placed frame (List.mem_cons_of_mem _ hm)

end Passage

/-! ### All passages of a rendering -/

section
variable {κ σ : Type} [CharSource σ] [FaithfulSource σ] {g : Token.Grammar} {text : List Char}

/-- The blocks of each passage lie on top of those of the passages that it stands in. The outermost
passage is over `text`, the others are over values, which are all there. -/
inductive Stacked (g : Token.Grammar) (text : List Char) : List (Passage σ) → Frames → Prop where
  | base (frames : Frames) : Stacked g text [] frames
  | passage {p : Passage σ} {outer : List (Passage σ)} {value : List Char} {own below : Frames}
      (tracks : p.Tracks g value own) (opened : p.opened = below.length)
      (lower : ∀ frame ∈ below, frame.level < p.level) (outermost : outer = [] → value = text)
      (nested : outer ≠ [] → p.window.isFixed = true) (around : Stacked g text outer below) :
      Stacked g text (p :: outer) (own ++ below)

namespace Rendering
variable {host : Host κ} {value : List Char} {own below : Frames}

/-- The rendering is over `value`, in which the blocks `own` are open, and which stands in the blocks
`below`. -/
structure Reads (host : Host κ) (g : Token.Grammar) (text value : List Char) (own below : Frames)
    (r : Rendering κ σ) : Prop where
  grammar : host.grammar r.state.vars = g
  frames : r.state.frames = own ++ below
  tracks : r.passage.Tracks g value own
  opened : r.passage.opened = below.length
  lower : ∀ frame ∈ below, frame.level < r.passage.level
  outermost : r.outer = [] → value = text
  nested : r.outer ≠ [] → r.passage.window.isFixed = true
  around : Stacked g text r.outer below

/-- Every passage of the rendering is tracked. -/
def Tracked (host : Host κ) (g : Token.Grammar) (text : List Char) (r : Rendering κ σ) : Prop :=
  ∃ value own below, r.Reads host g text value own below

theorem tracked_start {w : Window σ} {level : Nat} {state : RenderState κ} (pool : Pool)
    (sink : Sink) (hw : w.Shows text) (hg : w.growth = 0)
    (hl : ∀ frame ∈ state.frames, frame.level < level) :
    (start w level state pool sink).Tracked host (host.grammar state.vars) text :=
  ⟨text, [], state.frames, rfl, rfl, ⟨hw, hg, nofun⟩, rfl, hl, fun _ => rfl, fun hn => absurd rfl hn,
    .base _⟩

namespace Reads
variable {r : Rendering κ σ}

/-- Reading on keeps every passage tracked. -/
theorem goesOnTo {r' : Rendering κ σ} (h : r.Reads host g text value own below)
    (hr : r.GoesOnTo value r') : r'.Reads host g text value own below := by
  have htracks := h.tracks.continues hr.window
  rw [← hr.passage] at htracks
  refine ⟨?_, ?_, htracks, ?_, ?_, ?_, fun hn => ?_, ?_⟩
  · rw [hr.state]
    exact h.grammar
  · rw [hr.state]
    exact h.frames
  · rw [hr.passage]
    exact h.opened
  · rw [hr.passage]
    exact h.lower
  · rw [hr.outer]
    exact h.outermost
  · rw [hr.outer] at hn
    rw [hr.window.isFixed]
    exact h.nested hn
  · rw [hr.outer]
    exact h.around

/-- A token that was read keeps every passage tracked, and no loop is closed that is not open. -/
theorem resolves {front raw : List Char} {token : Token} {resolution : Resolution}
    {state : RenderState κ} (h : r.Reads host g text value own below)
    (ht : value.take r.passage.window.cursor = front ++ host.left ++ (raw ++ host.right))
    (hr : r.Resolves host raw token resolution state) :
    (token.kind.isLoopClose = true → resolution.action ≠ .again → 0 < r.passage.window.growth) ∧
      ∃ own', (({ r with state } : Rendering κ σ).followLoop token.kind resolution.action).Reads
        host g text value own' below := by
  have hg : g.left = host.left ∧ g.right = host.right := by
    rw [← h.grammar]
    exact ⟨rfl, rfl⟩
  have hc : g.classify token.id raw = .ok token := by
    rw [Token.Grammar.id_of_classify hr.classify, ← h.grammar]
    exact hr.classify
  have hstep := Host.frameStep_of_interpret hr.interpret
  rw [show r.counted.frames = own ++ below from h.frames] at hstep
  rw [← hg.1, ← hg.2] at ht
  obtain ⟨hpos, own', hf, htracks⟩ := h.tracks.frameStep h.lower ht hc hstep r.pool
  refine ⟨hpos, own', ?_⟩
  rw [followLoop_eq]
  refine ⟨?_, hf, htracks, h.opened, h.lower, h.outermost, fun hn => ?_, h.around⟩
  · have hsame := Host.grammar_interpret host token r.passage.level r.passage.window.cursor r.counted
    rw [hr.interpret] at hsame
    exact hsame.trans h.grammar
  · exact (isFixed_follow ..).trans (h.nested hn)

/-- A loop that goes back keeps every passage tracked. -/
theorem seek {w : Window σ} {offset : Nat} (h : r.Reads host g text value own below)
    (hw : r.passage.window.seek offset = .ok w) :
    (r.withWindow w).Reads host g text value own below := by
  refine ⟨h.grammar, h.frames, h.tracks.of_seek hw, h.opened, h.lower, h.outermost, fun hn => ?_,
    h.around⟩
  exact (Window.isFixed_of_seek hw).trans (h.nested hn)

/-- A block at the level of the passage belongs to it. -/
theorem mem_own {frame : Frame} (h : r.Reads host g text value own below)
    (hm : frame ∈ r.state.frames) (hl : frame.level = r.passage.level) : frame ∈ own := by
  rw [h.frames] at hm
  rcases List.mem_append.1 hm with hm | hm
  · exact hm
  · have := h.lower frame hm
    omega

/-- When no block of the passage is open, its window has nothing to keep at hand. -/
theorem growth_of_closed (h : r.Reads host g text value own below)
    (hc : r.state.frames.length ≤ r.passage.opened) : own = [] ∧ r.passage.window.growth = 0 := by
  rw [h.frames, h.opened, List.length_append] at hc
  have hn : own = [] := List.eq_nil_of_length_eq_zero (by omega)
  subst hn
  exact ⟨rfl, h.tracks.growth⟩

/-- A token that starts a loop over finds the place to go back to. -/
theorem of_again {raw : List Char} {token : Token} {resolution : Resolution}
    {state : RenderState κ} (h : r.Reads host g text value own below) (hc : host.KeepsOn)
    (hr : r.Resolves host raw token resolution state) (ha : resolution.action = .again) :
    token.kind.isLoopClose = true ∧
      ∃ top below offset, state.frames = top :: below ∧ top.level = r.passage.level ∧
        top.resume = some offset ∧
        r.passage.window.seek offset = .ok { r.passage.window with cursor := offset } := by
  obtain ⟨top, rest, items, hf, hk, hl, htruthy, hf'⟩ := hc.of_again hr.interpret ha
  have hmem : top ∈ own := by
    refine h.mem_own ?_ hl
    rw [show r.state.frames = top :: rest from hf]
    exact List.mem_cons_self
  cases ho : top.resume with
  | none => exact absurd ho ((h.tracks.placed top hmem).canResume hk.isLoop htruthy)
  | some offset =>
    exact ⟨hk.isLoopClose, _, _, offset, hf', hl, ho, h.tracks.seek hmem ho⟩

end Reads

/-! ### Steps -/

/-- How far a rendering may come all of whose passages are tracked: no step loses track of one, and
none fails for it unless a callback starts loops over. -/
def Keeps (host : Host κ) (g : Token.Grammar) (text : List Char) : Progress κ σ → Prop
  | .running r => r.Tracked host g text
  | .finished r => r.passage.window.growth = 0
  | .failed e _ => host.KeepsOn → e.losesPlace = false

/-- Carrying a resolution out keeps every passage tracked. -/
theorem Reads.carryOut {r : Rendering κ σ} (h : r.Reads host g text value own below) (id : Nat)
    (resolution : Resolution)
    (hagain : host.KeepsOn → resolution.action = .again → ∃ offset w,
      r.state.frames.head?.bind (·.resume) = some offset ∧
        r.passage.window.seek offset = .ok w) :
    Keeps host g text (carryOut host r id resolution) := by
  rcases carryOut_cases host r id resolution with
    ⟨sink, hr⟩ | ⟨inner, _, hr⟩ | ⟨e, r', hr, he, _⟩ | ⟨ha, hr⟩
  · rw [hr]
    exact ⟨value, own, below, h.grammar, h.frames, h.tracks, h.opened, h.lower, h.outermost,
      h.nested, h.around⟩
  · rw [hr]
    have htracks : (r.enter inner.toList id).passage.Tracks g inner.toList [] :=
      ⟨Window.shows_fixed inner.toList, rfl, nofun⟩
    refine ⟨inner.toList, [], r.state.frames, h.grammar, rfl, htracks, rfl, fun frame hm => ?_, nofun,
      fun _ => rfl, ?_⟩
    · show frame.level < r.passage.level + 1
      rw [h.frames] at hm
      rcases List.mem_append.1 hm with hm | hm
      · have := (h.tracks.placed frame hm).level_eq
        omega
      · have := h.lower frame hm
        omega
    · rw [h.frames]
      exact .passage h.tracks h.opened h.lower h.outermost h.nested h.around
  · rw [hr]
    exact fun _ => e.losesPlace_of_namesPlace he
  · rw [hr]
    unfold replay
    split
    · next hn =>
      intro hc
      obtain ⟨offset, w, ho, _⟩ := hagain hc ha
      rw [hn] at ho
      cases ho
    · next offset ho =>
      split
      · next hw =>
        intro hc
        obtain ⟨offset', w, ho', hw'⟩ := hagain hc ha
        rw [ho] at ho'
        cases ho'
        rw [hw] at hw'
        cases hw'
      · next hw => exact ⟨value, own, below, h.seek hw⟩

/-- Leaving a passage keeps the others tracked. -/
theorem Reads.leave {r : Rendering κ σ} (h : r.Reads host g text value own below) :
    Keeps host g text r.leave := by
  rcases leave_cases r with ⟨e, hr, he⟩ | ⟨hc, hcase⟩
  · rw [hr]
    exact fun _ => e.losesPlace_of_namesPlace he
  · obtain ⟨rfl, hgrowth⟩ := h.growth_of_closed hc
    rcases hcase with ⟨_, hr⟩ | ⟨p, outer, ho, hr⟩
    · rw [hr]
      exact hgrowth
    · rw [hr]
      have hframes : r.state.frames = below := h.frames
      have haround := h.around
      rw [ho] at haround
      cases haround with
      | passage tracks opened lower outermost nested around =>
        exact ⟨_, _, _, h.grammar, hframes, tracks, opened, lower, outermost, nested, around⟩

/-- Every step keeps every passage tracked. -/
theorem Tracked.step {r : Rendering κ σ} (h : r.Tracked host g text) :
    Keeps host g text (r.step host) := by
  obtain ⟨value, own, below, h⟩ := h
  rw [step_eq]
  have hmeets : r.Meets host value (r.meet host) := meets_meet h.tracks.shows
  cases hm : r.meet host with
  | failure e r' =>
    rw [hm] at hmeets
    cases hmeets with
    | io => exact fun _ => rfl
    | unterminated => exact fun _ => rfl
  | ending r' =>
    rw [hm] at hmeets
    cases hmeets with
    | ending hr => exact (h.goesOnTo hr).leave
  | token raw r' =>
    rw [hm] at hmeets
    cases hmeets with
    | token hr ht =>
      have h := h.goesOnTo hr
      show Keeps host g text (act host r' raw)
      rcases act_cases host r' raw with ⟨token, resolution, state, hres⟩ | ⟨e, state, hf, he⟩
      · obtain ⟨_, own', hreads⟩ := h.resolves ht hres
        rw [act_of_resolves hres]
        refine hreads.carryOut token.id resolution fun hc ha => ?_
        obtain ⟨hclose, top, rest, offset, hframes, _, ho, hseek⟩ := h.of_again hc hres ha
        rw [followLoop_eq, follow_of_other (Token.Kind.isLoop_of_isLoopClose hclose) fun _ => ha]
        refine ⟨offset, _, ?_, hseek⟩
        show state.frames.head?.bind (·.resume) = some offset
        rw [hframes]
        exact ho
      · rw [hf]
        exact fun _ => e.losesPlace_of_namesPlace he

/-! ### Between two tokens -/

end Rendering
end

end Stencil
