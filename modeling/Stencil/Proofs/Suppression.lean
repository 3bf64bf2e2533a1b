import Stencil.Proofs.Frame

/-! When output is withheld.

Whether output is withheld is asked of the innermost block only. It could be asked of all of them, but
for an `if` whose `else` has begun: on a stack that interpreting tokens leads to, every block rests on
those below it in a certain way (`Frame.RestsOn`), which every token keeps (`Frames.Sound.interpret`),
and there the two questions have the same answer (`Frames.Sound.suppressed_iff`). -/
namespace Stencil

/-- What is true of an open block that lies on top of others. -/
structure Frame.RestsOn (below : Frames) (frame : Frame) : Prop where
  /-- An `else` lies on its `if`, and is rendered if that is not but could have been. -/
  onOpener : frame.kind = .elseMark → ∃ opener more, below = opener :: more ∧
    opener.kind = .ifOpen ∧ opener.level = frame.level ∧ frame.live = opener.live ∧
    frame.truthy = (opener.live && !opener.truthy)
  /-- Any other block is live if output was not withheld where it was opened. -/
  live_eq : frame.kind ≠ .elseMark → frame.live = !below.suppressed
  live_of_truthy : frame.truthy = true → frame.live = true
  /-- A loop that is rendered can start over. -/
  canResume : frame.kind.isLoop = true → frame.truthy = true → frame.resume ≠ none
  hasItems : frame.kind = .eachOpen → frame.truthy = true → frame.items ≠ none

/-- The `else` of a block has begun. -/
def Frame.CoveredBy (above : Frames) (frame : Frame) : Prop :=
  frame.kind = .ifOpen ∧
    ∃ mark ∈ above.getLast?, mark.kind = .elseMark ∧ mark.level = frame.level

/-- How a token leaves a block that it opens resting. -/
theorem Frame.restsOn_of_isOpening {frame : Frame} {below : Frames}
    (ho : frame.kind.isOpening = true) (hl : frame.live = !below.suppressed)
    (ht : frame.truthy = true → frame.live = true)
    (hr : frame.kind.isLoop = true → frame.truthy = true → frame.resume ≠ none)
    (hi : frame.kind = .eachOpen → frame.truthy = true → frame.items ≠ none) :
    frame.RestsOn below where
  onOpener hk := by
    rw [hk] at ho
    cases ho
  live_eq _ := hl
  live_of_truthy := ht
  canResume := hr
  hasItems := hi

theorem Frames.suppressed_cons (top : Frame) (below : Frames) :
    suppressed (top :: below) = !top.truthy := rfl

namespace Host
variable {κ : Type} {host : Host κ} {token : Token} {level resume : Nat} {s s' : RenderState κ}
  {resolution : Resolution}

/-- Where output is withheld a token that does not fail comes to nothing. -/
theorem eq_ignore_of_suppressed
    (h : host.interpret token level resume s = (.ok resolution, s'))
    (hs : s.frames.suppressed = true) : resolution = .ignore := by
  have hstep := frameStep_of_interpret h
  generalize hf : s.frames = frames at hstep
  generalize s'.frames = frames' at hstep
  cases hstep with
  | written hw =>
    rw [interpret_of_isWritten hw, if_pos hs] at h
    cases h
    rfl
  | loopAgain items hk hl ht hi =>
    rw [hf, Frames.suppressed_cons, ht] at hs
    cases hs
  | _ => rfl

/-- Only a value is put in place of a token, where output is not withheld. -/
theorem of_replace (h : host.interpret token level resume s = (.ok resolution, s'))
    (ha : resolution.action = .replace) :
    s'.frames = s.frames ∧ s.frames.suppressed = false := by
  constructor
  · have hstep := frameStep_of_interpret h
    generalize s.frames = frames at hstep
    generalize s'.frames = frames' at hstep
    cases hstep with
    | written hw => rfl
    | _ => cases ha
  · cases hs : s.frames.suppressed with
    | false => rfl
    | true =>
      rw [eq_ignore_of_suppressed h hs] at ha
      cases ha

end Host

namespace Frames

/-- Every block rests on those below it. -/
def Sound : Frames → Prop
  | [] => True
  | frame :: below => frame.RestsOn below ∧ Sound below

/-- A block on the stack, with these below it, is not rendered, and its `else` has not begun. -/
def WithheldBy (frames : Frames) (cause : Frame) (below : Frames) : Prop :=
  cause.truthy = false ∧ ∃ above, frames = above ++ cause :: below ∧ ¬cause.CoveredBy above

/-- The stacks of open blocks that tokens lead to, from none. Between two tokens anything may happen
but to the blocks, and a token may fail. -/
inductive Reachable : Frames → Prop where
  | none : Reachable []
  | interpret {κ : Type} (host : Host κ) (token : Token) (level resume : Nat) {s : RenderState κ}
      (h : Reachable s.frames) : Reachable (host.interpret token level resume s).2.frames

variable {frames below : Frames} {top frame : Frame}

/-! ### One question for all blocks -/

/-- Right below a block that is live, but for an `else`, stands none that is not rendered. -/
theorem Sound.truthy_of_live (h : Sound (top :: frame :: below)) (hk : top.kind ≠ .elseMark)
    (hl : top.live = true) : frame.truthy = true := by
  have hlive := h.1.live_eq hk
  rw [hl, suppressed_cons, Bool.not_not] at hlive
  exact hlive.symm

/-- Below a block that is live everything is rendered that still counts. -/
theorem Sound.truthy_or_covered {above : Frames} (h : Sound (top :: (above ++ frame :: below)))
    (hl : top.live = true) : frame.truthy = true ∨ frame.CoveredBy (top :: above) := by
  induction above generalizing top with
  | nil =>
    by_cases hk : top.kind = .elseMark
    · obtain ⟨opener, more, he, ho, hlevel, _⟩ := h.1.onOpener hk
      cases he
      exact .inr ⟨ho, top, rfl, hk, hlevel.symm⟩
    · exact .inl (h.truthy_of_live hk hl)
  | cons next above ih =>
    have hnext : next.live = true := by
      by_cases hk : top.kind = .elseMark
      · obtain ⟨opener, more, he, _, _, hlive, _⟩ := h.1.onOpener hk
        cases he
        exact hlive ▸ hl
      · exact h.2.1.live_of_truthy (h.truthy_of_live hk hl)
    -- The block right above the one in question is the same on the shorter stack.
    exact ih h.2 hnext

/-- The innermost block can be asked instead of all. -/
theorem Sound.suppressed_iff (h : frames.Sound) :
    frames.suppressed = true ↔ ∃ cause below, frames.WithheldBy cause below := by
  constructor
  · intro hs
    cases frames with
    | nil => cases hs
    | cons top below =>
      refine ⟨top, below, by simpa [suppressed_cons] using hs, [], rfl, ?_⟩
      rintro ⟨_, mark, hm, _⟩
      cases hm
  · rintro ⟨cause, below, hc, above, rfl, hcover⟩
    cases above with
    | nil => simp [suppressed_cons, hc]
    | cons top above =>
      cases ht : top.truthy with
      | false => simp [suppressed_cons, ht]
      | true =>
        rcases h.truthy_or_covered (h.1.live_of_truthy ht) with htrue | hcovered
        · rw [hc] at htrue
          cases htrue
        · exact absurd hcovered hcover

/-! ### What tokens keep -/

/-- On a sound stack an `else` is never without its `if`, so a token that fails changes nothing. -/
theorem Sound.eq_of_error {κ : Type} {host : Host κ} {token : Token} {level resume : Nat}
    {s s' : RenderState κ} {e : RenderError} (h : s.frames.Sound)
    (hi : host.interpret token level resume s = (.error e, s')) : s' = s := by
  rcases Host.of_interpret_error hi with hs | ⟨mark, below, hf, hm, hl, hno, _⟩
  · exact hs
  · rw [hf] at h
    obtain ⟨opener, more, rfl, ho, hlevel, _⟩ := h.1.onOpener hm
    have hyes : topIs (opener :: more) .ifOpen level = true :=
      Host.topIs_iff.2 ⟨opener, more, rfl, ho, hlevel.trans hl⟩
    rw [hno] at hyes
    cases hyes

/-- A token that does not fail keeps a stack sound. -/
theorem Sound.frameStep {token : Token} {level resume : Nat} {resolution : Resolution}
    {frames' : Frames} (h : frames.Sound)
    (hstep : FrameStep token level resume frames resolution frames') : frames'.Sound := by
  have hnotLoop : token.kind = .ifOpen ∨ token.kind = .elseMark →
      token.kind.isLoop = false ∧ token.kind ≠ .eachOpen := by
    rintro (hk | hk) <;> rw [hk] <;> exact ⟨rfl, nofun⟩
  cases hstep with
  | written hw => exact h
  | defined hk => exact h
  | skipped hs hopen =>
    exact ⟨Frame.restsOn_of_isOpening hopen (by rw [hs]; rfl) nofun nofun nofun, h⟩
  | ifOpened truthy hs hk =>
    obtain ⟨hloop, heach⟩ := hnotLoop (.inl hk)
    refine ⟨Frame.restsOn_of_isOpening ?_ (by rw [hs]; rfl) (fun _ => rfl) (fun hl => ?_)
      (fun he => absurd he heach), h⟩
    · exact congrArg Token.Kind.isOpening hk
    · exact absurd hl (ne_true_of_eq_false hloop)
  | whileOpened truthy hs hk =>
    refine ⟨Frame.restsOn_of_isOpening ?_ (by rw [hs]; rfl) (fun _ => rfl) (fun _ _ => nofun)
      (fun he => ?_), h⟩
    · exact congrArg Token.Kind.isOpening hk
    · cases hk.symm.trans he
  | eachEmpty hs hk =>
    exact ⟨Frame.restsOn_of_isOpening (congrArg Token.Kind.isOpening hk) (by rw [hs]; rfl) nofun nofun
      nofun, h⟩
  | eachOpened items hs hk =>
    exact ⟨Frame.restsOn_of_isOpening (congrArg Token.Kind.isOpening hk) (by rw [hs]; rfl)
      (fun _ => rfl) (fun _ _ => nofun) (fun _ _ => nofun), h⟩
  | elseMarked hk ht hl =>
    obtain ⟨hloop, heach⟩ := hnotLoop (.inr hk)
    refine ⟨⟨fun _ => ⟨_, _, rfl, ht, hl, rfl, rfl⟩, fun he => absurd hk he, fun htruthy => ?_,
      fun hl => absurd hl (ne_true_of_eq_false hloop), fun he => absurd he heach⟩, h⟩
    exact (Bool.and_eq_true_iff.1 htruthy).1
  | ifClosed hk ht hl => exact h.2
  | elseClosed hk hm hml ht hl => exact h.2.2
  | loopClosed hk hl => exact h.2
  | loopAgain items hk hl ht hi =>
    refine ⟨⟨h.1.onOpener, h.1.live_eq, h.1.live_of_truthy, h.1.canResume, fun he htruthy => ?_⟩, h.2⟩
    rcases hi with hsame | ⟨item, rest, _, hrest⟩
    · exact hsame ▸ h.1.hasItems he htruthy
    · show items ≠ none
      rw [hrest]
      nofun

/-- Whatever a token does, a sound stack stays sound. -/
theorem Sound.interpret {κ : Type} {s : RenderState κ} (h : s.frames.Sound) (host : Host κ)
    (token : Token) (level resume : Nat) :
    (host.interpret token level resume s).2.frames.Sound := by
  cases hi : host.interpret token level resume s with
  | mk result s' =>
    cases result with
    | ok resolution => exact h.frameStep (Host.frameStep_of_interpret hi)
    | error e =>
      rw [h.eq_of_error hi]
      exact h

theorem Reachable.sound (h : frames.Reachable) : frames.Sound := by
  induction h with
  | none => trivial
  | interpret host token level resume _ ih => exact ih.interpret host token level resume

/-- **Asking the innermost block is enough**: on a stack of open blocks that tokens lead to, every
block rests on those below it, and the innermost one is not rendered just if some block is not whose
`else` has not begun. -/
theorem sound_and_suppressed_iff (h : frames.Reachable) :
    frames.Sound ∧
      (frames.suppressed = true ↔ ∃ cause below, frames.WithheldBy cause below) :=
  ⟨h.sound, h.sound.suppressed_iff⟩

/-- A block in the `else` of an `if` that holds, in a loop that a token out of place did not
close. -/
theorem suppressed_iff_of_dead_else :
    let opener : Token := ⟨1, .eachOpen "x" "v => v.xs", 18⟩
    let condition : Token := ⟨2, .ifOpen (.expression "v => v.x"), 11⟩
    let mark : Token := ⟨4, .elseMark, 4⟩
    let inner : Token := ⟨5, .ifOpen (.holds "x"), 4⟩
    let frames : Frames :=
      [.skipped inner 0, { token := mark, truthy := false, live := true, level := 0 },
        { token := condition, truthy := true, live := true, level := 0 },
        { token := opener, truthy := true, live := true, level := 0, resume := some 22,
          items := some ["b"] }]
    frames.Reachable ∧ frames.Sound ∧
      (frames.suppressed = true ↔ ∃ cause below, frames.WithheldBy cause below) := by
  intro opener condition mark inner frames
  let items : Host Unit := { evaluator := fun _ _ => .ok (.list [.str "a", .str "b"]) }
  let holds : Host Unit := { evaluator := fun _ _ => .ok (.bool true) }
  let state (frames : Frames) : RenderState Unit := { frames, vars := {}, memory := () }
  have hloop : Reachable (items.interpret opener 0 22 (state [])).2.frames :=
    .interpret items opener 0 22 .none
  have hif := Reachable.interpret holds condition 0 35 (s := state _) hloop
  have hstray := Reachable.interpret holds ⟨3, .whileClose, 6⟩ 0 43 (s := state _) hif
  have helse := Reachable.interpret holds mark 0 51 (s := state _) hstray
  have h : frames.Reachable := .interpret holds inner 0 57 (s := state _) helse
  exact ⟨h, sound_and_suppressed_iff h⟩

end Frames

end Stencil
