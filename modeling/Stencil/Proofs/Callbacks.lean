import Stencil.Proofs.Replay

/-! Callbacks that start loops over.

A callback may have any value start the innermost block over. In a passage with open blocks of its own
that is no different from what a closing token does: the innermost block is one of these, and if it is a
loop its beginning is at hand (`Rendering.Reads.seek_of_own`). But all passages share one stack of open
blocks. In a value without open blocks of its own the innermost one belongs to a text around it, and it
is in the value that its beginning is looked for then (`Rendering.Strays`). Nothing else makes a
rendering fail for a position (`Rendering.position_iff_strays`). -/
namespace Stencil

namespace Host
variable {κ : Type} {host : Host κ} {token : Token} {level resume : Nat} {s s' : RenderState κ}
  {resolution : Resolution}

/-- A block is started over by the closing token of the innermost loop, or by a callback. -/
theorem of_again (h : host.interpret token level resume s = (.ok resolution, s'))
    (ha : resolution.action = .again) :
    (∃ top below items, s.frames = top :: below ∧ ClosesLoop token.kind top.kind ∧
      top.level = level ∧ s'.frames = { top with items } :: below) ∨
    (token.kind.isWritten = true ∧ host.callback ≠ none) := by
  by_cases hc : host.callback = none
  · have hkeeps : host.KeepsOn := by
      intro callback hcallback
      rw [hc] at hcallback
      cases hcallback
    obtain ⟨top, below, items, hf, hk, hl, _, hf'⟩ := hkeeps.of_again h ha
    exact .inl ⟨top, below, items, hf, hk, hl, hf'⟩
  · have hstep := frameStep_of_interpret h
    generalize s.frames = frames at hstep
    generalize s'.frames = frames' at hstep
    cases hstep with
    | written hw => exact .inr ⟨hw, hc⟩
    | loopAgain items hk hl ht => exact .inl ⟨_, _, items, rfl, hk, hl, rfl⟩
    | _ => cases ha

/-- So no token that opens a loop does it. -/
theorem isLoop_of_again (h : host.interpret token level resume s = (.ok resolution, s'))
    (ha : resolution.action = .again) : token.kind.isLoop = false := by
  rcases of_again h ha with ⟨_, _, _, _, hk, _, _⟩ | ⟨hw, _⟩
  · exact Token.Kind.isLoop_of_isLoopClose hk.isLoopClose
  · exact (Token.Kind.isLoop_of_isWritten hw).1

end Host

namespace Rendering
variable {κ σ : Type} [CharSource σ] {host : Host κ} {r behind : Rendering κ σ} {token : Token}
  {state : RenderState κ} {offset start stop : Nat}

/-- The next token is resolved to starting the innermost block over: the rendering is behind the token
then, and carries that state. -/
def StartsOver (host : Host κ) (r behind : Rendering κ σ) (token : Token) (state : RenderState κ) :
    Prop :=
  ∃ raw resolution, r.meet host = .token raw behind ∧
    behind.Resolves host raw token resolution state ∧ resolution.action = .again

/-- The block that starts over is a loop of a text around the passage, which goes on at `offset` of the
passage itself. -/
structure Strays (host : Host κ) (r behind : Rendering κ σ) (token : Token) (state : RenderState κ)
    (offset : Nat) : Prop where
  startsOver : r.StartsOver host behind token state
  /-- A callback was asked, about a value. -/
  isWritten : token.kind.isWritten = true
  asked : host.callback ≠ none
  /-- The passage has no open block of its own. -/
  around : ∃ top below, state.frames = top :: below ∧ top.level < r.passage.level ∧
    top.resume = some offset

/-- Where a block is started over, that is all that happens. -/
theorem StartsOver.step_eq_replay (h : r.StartsOver host behind token state) :
    r.step host = ({ behind with state } : Rendering κ σ).replay token.id := by
  obtain ⟨raw, resolution, hm, hres, ha⟩ := h
  have hl := Host.isLoop_of_again hres.interpret ha
  have hact : r.step host = act host behind raw := by rw [step_eq, hm]
  rw [hact, act_of_resolves hres, followLoop_eq, follow_of_other hl fun _ => ha]
  show Rendering.carryOut host ({ behind with state } : Rendering κ σ) token.id resolution = _
  unfold Rendering.carryOut
  rw [ha]

/-- Then the rendering goes on where the innermost block begins, or fails if that is out of reach. -/
theorem StartsOver.step_eq_seek (h : r.StartsOver host behind token state)
    (ho : state.frames.head?.bind (·.resume) = some offset) :
    r.step host =
      match behind.passage.window.seek offset with
      | .ok window => .running (({ behind with state } : Rendering κ σ).withWindow window)
      | .error e => .failed e { behind with state } := by
  rw [h.step_eq_replay, replay]
  dsimp only
  rw [ho]
  dsimp only
  cases behind.passage.window.seek offset with
  | ok window => rfl
  | error e => rfl

/-- A position that is out of reach is the one that was looked for. -/
theorem StartsOver.of_position {r' : Rendering κ σ} (h : r.StartsOver host behind token state)
    (hfail : r.step host = .failed (.position offset start stop) r') :
    state.frames.head?.bind (·.resume) = some offset ∧
      behind.passage.window.seek offset = .error (.position offset start stop) := by
  cases ho : state.frames.head?.bind (·.resume) with
  | none =>
    rw [h.step_eq_replay, replay] at hfail
    dsimp only at hfail
    rw [ho] at hfail
    cases hfail
  | some place =>
    rw [h.step_eq_seek ho] at hfail
    cases hw : behind.passage.window.seek place with
    | ok w =>
      rw [hw] at hfail
      cases hfail
    | error e =>
      rw [hw] at hfail
      cases hfail
      have hplace : place = offset := by
        unfold Window.seek at hw
        split at hw
        · cases hw
        · cases hw
          rfl
      exact ⟨congrArg some hplace, hplace ▸ hw⟩

theorem Strays.resume (h : r.Strays host behind token state offset) :
    state.frames.head?.bind (·.resume) = some offset := by
  obtain ⟨top, rest, hf, _, ho⟩ := h.around
  rw [hf]
  exact ho

/-- A rendering fails for a place where it reads on, or where a block that is started over cannot go
back. -/
theorem of_failed_at_place {e : RenderError} {r' : Rendering κ σ} (he : e.namesPlace = true)
    (h : r.step host = .failed e r') :
    r.meet host = .failure e r' ∨ ∃ behind token state, r.StartsOver host behind token state ∧
      (({ behind with state } : Rendering κ σ).followLoop token.kind .again).replay token.id =
        .failed e r' := by
  have hnot : ∀ {e' : RenderError}, e'.namesPlace = false → e' ≠ e := by
    rintro _ hno rfl
    rw [he] at hno
    cases hno
  rw [step_eq] at h
  cases hm : r.meet host with
  | failure e₁ r₁ =>
    rw [hm] at h
    cases h
    exact .inl rfl
  | ending r₁ =>
    rw [hm] at h
    rcases leave_cases r₁ with ⟨e₁, hr, hno⟩ | ⟨_, ⟨_, hr⟩ | ⟨_, _, _, hr⟩⟩
    · cases hr.symm.trans h
      exact absurd rfl (hnot hno)
    · cases hr.symm.trans h
    · cases hr.symm.trans h
  | token raw r₁ =>
    rw [hm] at h
    have h : act host r₁ raw = .failed e r' := h
    rcases act_cases host r₁ raw with ⟨token, resolution, state, hres⟩ | ⟨e₁, state, hf, hno⟩
    · rw [act_of_resolves hres] at h
      rcases carryOut_cases host
          (({ r₁ with state } : Rendering κ σ).followLoop token.kind resolution.action) token.id
          resolution with ⟨_, hr⟩ | ⟨_, _, hr⟩ | ⟨e₁, _, hr, hno, _⟩ | ⟨ha, hr⟩
      · cases hr.symm.trans h
      · cases hr.symm.trans h
      · cases hr.symm.trans h
        exact absurd rfl (hnot hno)
      · rw [hr, ha] at h
        exact .inr ⟨r₁, token, state, ⟨raw, resolution, hm, hres, ha⟩, h⟩
    · cases hf.symm.trans h
      exact absurd rfl (hnot hno)

/-- A rendering fails for a position only where a block is started over. -/
theorem exists_startsOver_of_position {r' : Rendering κ σ} [FaithfulSource σ] {text : List Char}
    (hw : r.passage.window.Shows text)
    (h : r.step host = .failed (.position offset start stop) r') :
    ∃ behind token state, r.StartsOver host behind token state := by
  have hmeets : r.Meets host text (r.meet host) := meets_meet hw
  rcases of_failed_at_place rfl h with hm | ⟨behind, token, state, hs, _⟩
  · rw [hm] at hmeets
    cases hmeets
  · exact ⟨behind, token, state, hs⟩

/-! ### Whose block it is -/

variable [FaithfulSource σ] {g : Token.Grammar} {text value : List Char} {own below : Frames}

/-- The innermost block, where it belongs to the passage, can go back to behind its opening token. -/
theorem Reads.seek_of_own {top : Frame} {rest : Frames} (h : r.Reads host g text value own below)
    (hf : r.state.frames = top :: rest) (hl : top.level = r.passage.level)
    (ho : top.resume = some offset) :
    top.OpenedAt g value offset ∧
      r.passage.window.seek offset = .ok { r.passage.window with cursor := offset } := by
  have hm : top ∈ own := h.mem_own (by rw [hf]; exact List.mem_cons_self) hl
  obtain ⟨_, _, hopened⟩ := (h.tracks.placed top hm).atHand offset ho
  exact ⟨hopened, h.tracks.seek hm ho⟩

/-- The rendering behind a token that starts a block over, before it goes back. -/
theorem Reads.startsOver (h : r.Reads host g text value own below)
    (hs : r.StartsOver host behind token state) :
    behind.passage.level = r.passage.level ∧
      ∃ own', ({ behind with state } : Rendering κ σ).Reads host g text value own' below := by
  obtain ⟨raw, resolution, hm, hres, ha⟩ := hs
  have hmeets : r.Meets host value (r.meet host) := meets_meet h.tracks.shows
  rw [hm] at hmeets
  cases hmeets with
  | token hr ht =>
    have hl := Host.isLoop_of_again hres.interpret ha
    obtain ⟨_, own', hreads⟩ := (h.goesOnTo hr).resolves ht hres
    rw [followLoop_eq, follow_of_other hl fun _ => ha] at hreads
    exact ⟨by rw [hr.passage], own', hreads⟩

/-- A block that starts over is a loop of the passage, or the callback strays. -/
theorem Reads.strays_or_own (h : r.Reads host g text value own below)
    (hs : r.StartsOver host behind token state)
    (ho : state.frames.head?.bind (·.resume) = some offset) :
    r.Strays host behind token state offset ∨
      ∃ top rest, state.frames = top :: rest ∧ top.level = r.passage.level ∧
        top.OpenedAt g value offset ∧
        behind.passage.window.seek offset = .ok { behind.passage.window with cursor := offset } := by
  obtain ⟨hlevel, own', hreads⟩ := h.startsOver hs
  cases hf : state.frames with
  | nil =>
    rw [hf] at ho
    cases ho
  | cons top rest =>
    rw [hf] at ho
    have ho : top.resume = some offset := ho
    by_cases hl : top.level = r.passage.level
    · exact .inr ⟨top, rest, rfl, hl, hreads.seek_of_own hf (hl.trans hlevel.symm) ho⟩
    · obtain ⟨raw, resolution, hm, hres, ha⟩ := hs
      rcases Host.of_again hres.interpret ha with ⟨_, _, _, _, _, htop, hf'⟩ | ⟨hw, hc⟩
      · cases hf.symm.trans hf'
        exact absurd (htop.trans hlevel) hl
      · -- It is none of the blocks of the passage, which are all at its level.
        refine .inl ⟨⟨raw, resolution, hm, hres, ha⟩, hw, hc, top, rest, hf, ?_, ho⟩
        have hmem : top ∈ own' ++ below := by
          rw [← hreads.frames]
          show top ∈ state.frames
          rw [hf]
          exact List.mem_cons_self
        rcases List.mem_append.1 hmem with hown | hbelow
        · exact absurd ((hreads.tracks.placed top hown).level_eq.trans hlevel) hl
        · exact Nat.lt_of_lt_of_eq (hreads.lower top hbelow) hlevel

/-- A rendering that fails for a position is one whose callback strays. -/
theorem Reads.strays_of_position {r' : Rendering κ σ} (h : r.Reads host g text value own below)
    (hfail : r.step host = .failed (.position offset start stop) r') :
    ∃ behind token state, r.Strays host behind token state offset ∧
      behind.passage.window.seek offset = .error (.position offset start stop) := by
  obtain ⟨behind, token, state, hs⟩ := exists_startsOver_of_position h.tracks.shows hfail
  obtain ⟨ho, hseek⟩ := hs.of_position hfail
  refine ⟨behind, token, state, ?_, hseek⟩
  rcases h.strays_or_own hs ho with hstrays | ⟨_, _, _, _, _, hgoes⟩
  · exact hstrays
  · cases hgoes.symm.trans hseek

/-- Wherever a run comes to, its passages are tracked. -/
theorem exists_reads_of_run {w : Window σ} {level steps : Nat} {begun : RenderState κ} {pool : Pool}
    {sink : Sink} (hw : w.Shows text) (hg : w.growth = 0)
    (hl : ∀ frame ∈ begun.frames, frame.level < level)
    (hr : (Rendering.start w level begun pool sink).run host steps = .running r) :
    ∃ value own below, r.Reads host (host.grammar begun.vars) text value own below := by
  have htracked : Keeps host (host.grammar begun.vars) text
      ((Rendering.start w level begun pool sink).run host steps) :=
    run_invariant (fun _ h => Tracked.step h) (tracked_start pool sink hw hg hl) steps
  rw [hr] at htracked
  exact htracked

/-- **Only a callback that strays is refused its place.** However far a rendering has come, a block that
is started over goes back, in the passage that it was opened in, to behind the token that opened it; or
else a callback was asked, in a value without open blocks of its own, and the loop is one of a text around
it. Then the rendering goes on at that offset of the value, and fails for the position if the value has no
such offset; nothing else makes it fail so. -/
theorem position_iff_strays {w : Window σ} {level steps : Nat} {begun : RenderState κ} {pool : Pool}
    {sink : Sink} (hw : w.Shows text) (hg : w.growth = 0)
    (hl : ∀ frame ∈ begun.frames, frame.level < level)
    (hr : (Rendering.start w level begun pool sink).run host steps = .running r) :
    (∀ behind token state offset, r.StartsOver host behind token state →
      state.frames.head?.bind (·.resume) = some offset →
      r.step host =
        (match behind.passage.window.seek offset with
        | .ok window => .running (({ behind with state } : Rendering κ σ).withWindow window)
        | .error e => .failed e { behind with state }) ∧
      (r.Strays host behind token state offset ∨
        ∃ value top rest, r.passage.window.Shows value ∧ state.frames = top :: rest ∧
          top.level = r.passage.level ∧
          top.OpenedAt (host.grammar begun.vars) value offset ∧
          behind.passage.window.seek offset =
            .ok { behind.passage.window with cursor := offset })) ∧
    ∀ offset start stop, (∃ r', r.step host = .failed (.position offset start stop) r') ↔
      ∃ behind token state, r.Strays host behind token state offset ∧
        behind.passage.window.seek offset = .error (.position offset start stop) := by
  obtain ⟨value, own, below, h⟩ := exists_reads_of_run hw hg hl hr
  refine ⟨fun behind token state offset hs ho => ⟨hs.step_eq_seek ho, ?_⟩,
    fun offset start stop => ⟨?_, ?_⟩⟩
  · rcases h.strays_or_own hs ho with hstrays | ⟨top, rest, hf, htop, hopened, hseek⟩
    · exact .inl hstrays
    · exact .inr ⟨value, top, rest, h.tracks.shows, hf, htop, hopened, hseek⟩
  · rintro ⟨r', hfail⟩
    exact h.strays_of_position hfail
  · rintro ⟨behind, token, state, hstrays, hseek⟩
    refine ⟨{ behind with state }, ?_⟩
    rw [hstrays.startsOver.step_eq_seek hstrays.resume, hseek]

end Rendering

/-! ### A callback that strays -/

/-- Why a rendering failed, if it did. -/
def Progress.failure? {κ σ : Type} : Progress κ σ → Option RenderError
  | .running _ => none
  | .finished _ => none
  | .failed e _ => some e

theorem Progress.exists_of_failure? {κ σ : Type} {p : Progress κ σ} {e : RenderError}
    (h : p.failure? = some e) : ∃ r, p = .failed e r := by
  cases p with
  | running r => cases h
  | finished r => cases h
  | failed e' r =>
    cases h
    exact ⟨r, rfl⟩

/-- A host whose callback starts the innermost block over at the first value named `z`. -/
def strayingHost : Host Bool where
  callback := some fun done token resolution =>
    if !done && token.directive = .value "z" then (.again, true) else (resolution, done)

/-- A loop that begins at offset eleven, around a value of five characters. -/
def straying : Rendering Bool TextSource :=
  .start (.fixed "{{while z}}{{y}}{{z:}}{{/while}}".toList) 0
    { vars := .ofList [("y", .str "{{z}}"), ("z", .str "deep")], memory := false } ⟨[], 0, 0⟩ {}

namespace Rendering

theorem step_straying :
    ∃ r r', straying.run strayingHost 2 = .running r ∧
      r.step strayingHost = .failed (.position 11 0 5) r' := by
  have hgoes : (straying.run strayingHost 2).failure? = none := by decide +kernel
  have hfails : (straying.run strayingHost 3).failure? = some (.position 11 0 5) := by
    decide +kernel
  rw [run_succ_last] at hfails
  cases hr : straying.run strayingHost 2 with
  | running r =>
    rw [hr] at hfails
    obtain ⟨r', hstep⟩ := Progress.exists_of_failure? hfails
    exact ⟨r, r', rfl, hstep⟩
  | finished r =>
    rw [hr] at hfails
    cases hfails
  | failed e r =>
    rw [hr] at hgoes
    cases hgoes

/-- The offset that the loop goes back to is none of the value that the callback was asked in. -/
theorem exists_strays :
    ∃ r behind token state, straying.run strayingHost 2 = .running r ∧
      r.Strays strayingHost behind token state 11 ∧
      ∃ r', r.step strayingHost = .failed (.position 11 0 5) r' := by
  obtain ⟨r, r', hr, hstep⟩ := step_straying
  have hl : ∀ frame ∈ straying.state.frames, frame.level < 0 := nofun
  obtain ⟨value, own, below, h⟩ := exists_reads_of_run (Window.shows_fixed _) rfl hl hr
  obtain ⟨behind, token, state, hstrays, _⟩ := h.strays_of_position hstep
  exact ⟨r, behind, token, state, hr, hstrays, r', hstep⟩

/-- What the theorem says of that rendering: its callback strays because it fails. -/
theorem position_iff_strays_straying :
    straying.passage.window.Shows "{{while z}}{{y}}{{z:}}{{/while}}".toList ∧
      straying.passage.window.growth = 0 ∧ (∀ frame ∈ straying.state.frames, frame.level < 0) ∧
      ∃ r, straying.run strayingHost 2 = .running r ∧
        ∃ behind token state, r.Strays strayingHost behind token state 11 ∧
          behind.passage.window.seek 11 = .error (.position 11 0 5) := by
  have hw : straying.passage.window.Shows "{{while z}}{{y}}{{z:}}{{/while}}".toList :=
    Window.shows_fixed _
  have hl : ∀ frame ∈ straying.state.frames, frame.level < 0 := nofun
  obtain ⟨r, r', hr, hstep⟩ := step_straying
  exact ⟨hw, rfl, hl, r, hr, ((position_iff_strays hw rfl hl hr).2 11 0 5).1 ⟨r', hstep⟩⟩

end Rendering

end Stencil
