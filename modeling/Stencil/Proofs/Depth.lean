import Stencil.Proofs.Replay
import Stencil.Proofs.Sight

/-! The way out of the loops.

Where the loops that are open end is a matter of the text: from a place behind which so many blocks are
open, the tokens ahead lead out of all of them at one place (`Leaves`). The blocks on the stack of a
rendering agree with the text: each token changes their number as it says (`Frames.inLoop_frameStep`),
however often it is met, and whether or not the blocks are rendered. -/
namespace Stencil

/-! ### Blocks in the text -/

namespace Token.Kind

def isClosing : Token.Kind → Bool
  | ifClose | whileClose | eachClose => true
  | _ => false

/-- How many blocks are open behind a token, if some are open in front of it. -/
def after (kind : Token.Kind) (depth : Nat) : Nat :=
  if kind.isOpening then depth + 1
  else if kind.isClosing then depth - 1
  else depth

theorem after_of_isOpening {kind : Token.Kind} (h : kind.isOpening = true) (depth : Nat) :
    kind.after depth = depth + 1 := if_pos h

theorem after_of_isLoopClose {kind : Token.Kind} (h : kind.isLoopClose = true) (depth : Nat) :
    kind.after depth = depth - 1 := by
  cases kind <;> first | rfl | cases h

theorem after_of_isWritten {kind : Token.Kind} (h : kind.isWritten = true) (depth : Nat) :
    kind.after depth = depth := by
  cases kind <;> first | rfl | cases h

end Token.Kind

/-- The tokens from a place on, of which `next` says the kind and where they end, lead out of so many
blocks at `stop`. -/
inductive Leaves (next : Nat → Option (Token.Kind × Nat)) : (cursor depth stop : Nat) → Prop
  | out {cursor : Nat} : Leaves next cursor 0 cursor
  | token {cursor cursor' depth stop : Nat} {kind : Token.Kind}
      (hn : next cursor = some (kind, cursor')) (h : Leaves next cursor' (kind.after (depth + 1)) stop) :
      Leaves next cursor (depth + 1) stop

namespace Leaves
variable {next : Nat → Option (Token.Kind × Nat)} {cursor cursor' depth stop : Nat}
  {kind : Token.Kind}

/-- Behind a token the way out is the same. -/
theorem iff_of_next (hn : next cursor = some (kind, cursor')) (hd : 0 < depth) :
    Leaves next cursor depth stop ↔ Leaves next cursor' (kind.after depth) stop := by
  obtain ⟨depth, rfl⟩ := Nat.exists_eq_succ_of_ne_zero (Nat.ne_of_gt hd)
  constructor
  · intro h
    cases h with
    | token hn' h =>
      rw [hn] at hn'
      cases hn'
      exact h
  · exact .token hn

theorem cursor_le (hlt : ∀ {cursor kind cursor'}, next cursor = some (kind, cursor') → cursor < cursor')
    (h : Leaves next cursor depth stop) : cursor ≤ stop := by
  induction h with
  | out => exact Nat.le_refl _
  | token hn _ ih => exact Nat.le_trans (Nat.le_of_lt (hlt hn)) ih

end Leaves

/-! ### Blocks on the stack -/

namespace Frames

/-- How many of the open blocks stand in a loop or are one. The other part of an `if` is not a block of
its own. -/
def inLoop : Frames → Nat
  | [] => 0
  | frame :: below =>
    if frame.kind = .elseMark then inLoop below
    else if frame.kind.isLoop = true ∨ 0 < inLoop below then inLoop below + 1
    else 0

theorem inLoop_of_elseMark {frame : Frame} (h : frame.kind = .elseMark) (below : Frames) :
    inLoop (frame :: below) = inLoop below := if_pos h

theorem inLoop_of_block {frame : Frame} {below : Frames} (h : frame.kind ≠ .elseMark)
    (hl : frame.kind.isLoop = true ∨ 0 < inLoop below) :
    inLoop (frame :: below) = inLoop below + 1 := by
  rw [inLoop, if_neg h, if_pos hl]

theorem inLoop_of_isLoop {frame : Frame} (h : frame.kind.isLoop = true) (below : Frames) :
    inLoop (frame :: below) = inLoop below + 1 := by
  refine inLoop_of_block (fun he => ?_) (.inl h)
  rw [he] at h
  cases h

/-- An `if` counts if it stands in a loop. -/
theorem inLoop_of_ifOpen {frame : Frame} {below : Frames} (h : frame.kind = .ifOpen)
    (hpos : 0 < inLoop (frame :: below)) : inLoop (frame :: below) = inLoop below + 1 := by
  have hne : frame.kind ≠ .elseMark := by rw [h]; nofun
  by_cases hb : 0 < inLoop below
  · exact inLoop_of_block hne (.inr hb)
  · have hzero : inLoop (frame :: below) = 0 := by
      rw [inLoop, if_neg hne, if_neg]
      rintro (hl | hb')
      · rw [h] at hl
        cases hl
      · exact hb hb'
    omega

/-- What a block is bound to next does not matter. -/
theorem inLoop_withItems (frame : Frame) (items : Option (List String)) (below : Frames) :
    inLoop ({ frame with items } :: below) = inLoop (frame :: below) := rfl

theorem inLoop_pos_iff {frames : Frames} : 0 < frames.inLoop ↔ 0 < frames.loops := by
  induction frames with
  | nil => exact Iff.rfl
  | cons frame below ih =>
    by_cases hl : frame.kind.isLoop = true
    · rw [inLoop_of_isLoop hl, loops_cons, if_pos hl]
      exact iff_of_true (Nat.succ_pos _) (Nat.succ_pos _)
    · rw [loops_cons, if_neg hl, Nat.add_zero, ← ih, inLoop]
      by_cases he : frame.kind = .elseMark
      · rw [if_pos he]
      · rw [if_neg he]
        by_cases hb : 0 < inLoop below
        · rw [if_pos (.inr hb)]
          exact iff_of_true (Nat.succ_pos _) hb
        · have hnone : ¬(frame.kind.isLoop = true ∨ 0 < inLoop below) := not_or.2 ⟨hl, hb⟩
          rw [if_neg hnone]
          exact iff_of_false (Nat.lt_irrefl 0) hb

theorem inLoop_eq_zero_iff {frames : Frames} : frames.inLoop = 0 ↔ frames.loops = 0 := by
  have hpos : 0 < frames.inLoop ↔ 0 < frames.loops := inLoop_pos_iff
  omega

/-- A token in a loop opens and closes blocks as the text says, unless one starts over. -/
theorem inLoop_frameStep {token : Token} {level resume : Nat} {frames frames' : Frames}
    {resolution : Resolution} (h : FrameStep token level resume frames resolution frames')
    (ha : resolution.action ≠ .again) (hpos : 0 < frames.inLoop) :
    frames'.inLoop = token.kind.after frames.inLoop := by
  have hopens : ∀ frame : Frame, frame.kind = token.kind → token.kind.isOpening = true →
      inLoop (frame :: frames) = token.kind.after frames.inLoop := by
    intro frame hk ho
    rw [Token.Kind.after_of_isOpening ho]
    refine inLoop_of_block (fun he => ?_) (.inr hpos)
    rw [← hk, he] at ho
    cases ho
  cases h with
  | written hw => rw [Token.Kind.after_of_isWritten hw]
  | defined hk => rw [hk]; rfl
  | skipped hs ho => exact hopens _ rfl ho
  | ifOpened truthy hs hk => exact hopens _ rfl (by rw [hk]; rfl)
  | whileOpened truthy hs hk => exact hopens _ rfl (by rw [hk]; rfl)
  | eachEmpty hs hk => exact hopens _ rfl (by rw [hk]; rfl)
  | eachOpened items hs hk => exact hopens _ rfl (by rw [hk]; rfl)
  | elseMarked hk ht hl =>
    rw [inLoop_of_elseMark (by exact hk), hk]
    rfl
  | ifClosed hk ht hl =>
    rw [inLoop_of_ifOpen ht hpos, hk]
    rfl
  | elseClosed hk hm hml ht hl =>
    rw [inLoop_of_elseMark hm] at hpos ⊢
    rw [inLoop_of_ifOpen ht hpos, hk]
    rfl
  | loopClosed hk hl =>
    rw [inLoop_of_isLoop hk.isLoop, Token.Kind.after_of_isLoopClose hk.isLoopClose]
    rfl
  | loopAgain => exact absurd rfl ha

end Frames

/-! ### The token ahead -/

theorem TextScan.lt_of_pass {scan : TextScan} {text : List Char} {ending : Option String}
    {cursor : Nat} (h : (scan.pass text ending cursor).result = .ok true) :
    cursor < (scan.pass text ending cursor).cursor := by
  unfold pass at h ⊢
  dsimp only at h ⊢
  split at h
  · next hf =>
    rw [if_pos hf]
    cases hd : text.drop cursor with
    | nil =>
      rw [hd] at hf
      cases hf
    | cons c cs => exact Nat.lt_add_of_pos_right (consumed_scanWith_pos ..)
  · split at h <;> cases h

theorem CloseScan.le_of_pass {scan : CloseScan} {text raw : List Char} {ending : Option String}
    {cursor : Nat} (h : (scan.pass text ending cursor).result = .ok (some raw)) :
    cursor ≤ (scan.pass text ending cursor).cursor := by
  unfold pass at h ⊢
  dsimp only at h ⊢
  split at h
  · next hf =>
    rw [if_pos hf]
    exact Nat.le_add_right ..
  · split at h <;> cases h

namespace Host
variable {κ : Type} {host : Host κ} {text raw : List Char} {cursor : Nat}

/-- A token lies ahead where a left delimiter does, and behind that the end of the token. -/
theorem look_of_token {level : Nat} (within : Option Nat) {ending : Option String} {stop : Nat}
    (hp : ((Rendering.textScan host level).pass text ending cursor).result = .ok true)
    (hc : ((Rendering.textScan host level).pass text ending cursor).cursor = stop)
    (hr : ((CloseScan.start host.left host.right).pass text ending stop).result = .ok (some raw)) :
    (host.look level within text ending cursor).result = .ok (some raw) ∧
      (host.look level within text ending cursor).cursor =
        ((CloseScan.start host.left host.right).pass text ending stop).cursor := by
  unfold look
  dsimp only
  rw [hp]
  dsimp only
  rw [hc, hr]
  exact ⟨rfl, rfl⟩

/-- And nowhere else. -/
theorem exists_of_look {level : Nat} {within : Option Nat} {ending : Option String}
    (h : (host.look level within text ending cursor).result = .ok (some raw)) :
    ∃ stop, ((Rendering.textScan host level).pass text ending cursor).result = .ok true ∧
      ((Rendering.textScan host level).pass text ending cursor).cursor = stop ∧
      ((CloseScan.start host.left host.right).pass text ending stop).result = .ok (some raw) := by
  refine ⟨_, ?_, rfl, ?_⟩
  · unfold look at h
    dsimp only at h
    split at h
    · cases h
    · cases h
    · next hp => exact hp
  · unfold look at h
    dsimp only at h
    split at h
    · cases h
    · cases h
    · split at h
      · cases h
      · cases h
      · next hr =>
        cases h
        exact hr

/-- The kind of the token ahead of a place in a template, and the place behind it. -/
def next (host : Host κ) (g : Token.Grammar) (text : List Char) (cursor : Nat) :
    Option (Token.Kind × Nat) :=
  let sight := host.look 0 none text none cursor
  match sight.result with
  | .ok (some raw) =>
    match g.read raw with
    | .ok directive => some (directive.kind, sight.cursor)
    | .error _ => none
  | _ => none

theorem next_of_look {g : Token.Grammar} {directive : Token.Directive}
    (h : (host.look 0 none text none cursor).result = .ok (some raw))
    (hd : g.read raw = .ok directive) :
    host.next g text cursor = some (directive.kind, (host.look 0 none text none cursor).cursor) := by
  unfold next
  dsimp only
  rw [h]
  dsimp only
  rw [hd]

/-- The place behind a token is behind the place in front of it. -/
theorem lt_of_next {g : Token.Grammar} {kind : Token.Kind} {cursor' : Nat}
    (h : host.next g text cursor = some (kind, cursor')) : cursor < cursor' := by
  unfold next at h
  dsimp only at h
  split at h
  · next raw hlook =>
    obtain ⟨stop, hp, hc, hr⟩ := exists_of_look hlook
    split at h
    · cases h
      rw [(look_of_token none hp hc hr).2]
      exact Nat.lt_of_lt_of_le (hc ▸ TextScan.lt_of_pass hp) (CloseScan.le_of_pass hr)
    · cases h
  · cases h

end Host

namespace Rendering
variable {κ σ : Type} [CharSource σ] [FaithfulSource σ] {text : List Char} {host : Host κ}
  {r r' : Rendering κ σ}

/-- A delimiter that was found, from however many pieces, is the one ahead in the text; if none was found
there is none. -/
theorem pass_of_passText {scan : TextScan} {found : Bool} (h : r.passage.window.Shows text)
    (hs : scan.Flushable) (hp : r.passText scan = (.ok found, r')) :
    r'.passage.window.Shows text ∧
      (scan.pass text none r.passage.window.cursor).result = .ok found ∧
      (scan.pass text none r.passage.window.cursor).cursor = r'.passage.window.cursor := by
  fun_induction Rendering.passText scan r with
  | case1 => cases hp
  | case2 => cases hp
  | case3 scan r r₁ hspan r₂ hw =>
    cases hp
    obtain ⟨window, pool, hwindow, rfl⟩ := of_span hspan
    obtain ⟨hread, hcs⟩ := h.span hwindow
    obtain ⟨_, _, hend⟩ := hcs [] rfl
    obtain ⟨sink, rfl, _⟩ := writeLiteral_eq hw
    rw [hend rfl, TextScan.pass_of_end]
    exact ⟨hread.shows, rfl, ((hread.cursor.trans (hend rfl))).symm⟩
  | case4 => cases hp
  | case5 scan r c cs r₁ hspan scanned r₂ hfound r₃ hw =>
    cases hp
    have hused : scanned.consumed ≤ (c :: cs).length := consumed_le_length scan (c :: cs)
    obtain ⟨hgoes, hcursor, hpre⟩ := goesOnTo_advance h hspan hused
    obtain ⟨sink, rfl, _⟩ := writeLiteral_eq hw
    rw [← hcursor, TextScan.pass_of_found hpre hfound]
    exact ⟨hgoes.window.shows, rfl, rfl⟩
  | case6 => cases hp
  | case7 scan r c cs r₁ hspan scanned r₂ hfound taken r₃ hw ih =>
    have hfound : scanned.found = false := Bool.eq_false_iff.2 hfound
    have hused : scanned.consumed = (c :: cs).length := consumed_of_not_found scan (c :: cs) hfound
    obtain ⟨hgoes, hcursor, hpre⟩ := goesOnTo_advance h hspan (Nat.le_of_eq hused)
    obtain ⟨sink, rfl, _⟩ := writeLiteral_eq hw
    obtain ⟨hshows, hresult, hend⟩ := ih hgoes.window.shows (hs.scan [] (c :: cs)).2.take.1 hp
    have hplace : r₂.passage.window.cursor = r₁.passage.window.cursor + (c :: cs).length :=
      congrArg (r₁.passage.window.cursor + ·) hused
    rw [← hcursor, TextScan.pass_of_not_found hpre hfound (.inl hs), ← hplace]
    exact ⟨hshows, hresult, hend⟩

/-- So is the end of a token. -/
theorem pass_of_readToken {scan : CloseScan} {raw : List Char} (h : r.passage.window.Shows text)
    (hp : r.readToken scan = (.ok (some raw), r')) :
    (scan.pass text none r.passage.window.cursor).result = .ok (some raw) ∧
      (scan.pass text none r.passage.window.cursor).cursor = r'.passage.window.cursor := by
  fun_induction Rendering.readToken scan r with
  | case1 => cases hp
  | case2 => cases hp
  | case3 scan r c cs r₁ hspan scanned r₂ hfound =>
    obtain ⟨hraw, rfl⟩ := Prod.mk.inj hp
    cases hraw
    obtain ⟨_, hcursor, _, hcs⟩ := goesOnTo_span h hspan
    obtain ⟨hpre, _⟩ := hcs _ rfl
    rw [← hcursor, CloseScan.pass_of_found hpre hfound]
    exact ⟨rfl, rfl⟩
  | case4 scan r c cs r₁ hspan scanned r₂ hfound ih =>
    have hfound : scanned.found = false := Bool.eq_false_iff.2 hfound
    have hused : scanned.consumed = (c :: cs).length := consumed_of_not_found scan (c :: cs) hfound
    obtain ⟨hgoes, hcursor, hpre⟩ := goesOnTo_advance h hspan (Nat.le_of_eq hused)
    have hplace : r₂.passage.window.cursor = r₁.passage.window.cursor + (c :: cs).length :=
      congrArg (r₁.passage.window.cursor + ·) hused
    rw [← hcursor, CloseScan.pass_of_not_found hpre hfound, ← hplace]
    exact ih hgoes.window.shows hp

/-- A token of a template that is met lies ahead in the text. -/
theorem look_of_meet {raw : List Char} (h : r.passage.window.Shows text) (hl : r.passage.level = 0)
    (hm : r.meet host = .token raw r') :
    (host.look 0 none text none r.passage.window.cursor).result = .ok (some raw) ∧
      (host.look 0 none text none r.passage.window.cursor).cursor = r'.passage.window.cursor := by
  have hflush : (textScan host 0).Flushable := TextScan.flushable_plain host.left
  have hcomes := comesUpon_meet host r
  rw [hm] at hcomes
  cases hcomes with
  | token ht hr =>
    rw [hl] at ht
    obtain ⟨hshows, hresult, hcursor⟩ := pass_of_passText h hflush ht
    obtain ⟨hresult', hcursor'⟩ := pass_of_readToken hshows hr
    obtain ⟨hlook, hplace⟩ := Host.look_of_token none hresult hcursor hresult'
    exact ⟨hlook, hplace.trans hcursor'⟩

theorem next_of_meet {g : Token.Grammar} {raw : List Char} {directive : Token.Directive}
    (h : r.passage.window.Shows text) (hl : r.passage.level = 0) (hm : r.meet host = .token raw r')
    (hd : g.read raw = .ok directive) :
    host.next g text r.passage.window.cursor =
      some (directive.kind, r'.passage.window.cursor) := by
  obtain ⟨hlook, hplace⟩ := look_of_meet h hl hm
  rw [Host.next_of_look hlook hd, hplace]

end Rendering

end Stencil
