import Stencil.Proofs.Callbacks
import Stencil.Proofs.Nesting
import Stencil.Proofs.Retention

/-! What a rendering keeps of its template.

Between two tokens the window on a template that is read from a source keeps what the open loops may need
and nothing else (`neededKept_of_run`), whatever callbacks do and in whatever pieces the source gives the
template. A token of the template that is met is the one ahead in the text, and the window is told of it
(`Retaining.step_of_template`); while a value is rendered the window and the blocks of the template lie
where they are (`outermost_of_nested`). -/
namespace Stencil

/-- The blocks that were opened in the template itself. -/
def Frames.ofTemplate (frames : Frames) : Frames :=
  frames.filter (·.level = 0)

namespace Frames

theorem ofTemplate_of_pos {frame : Frame} (h : frame.level ≠ 0) (below : Frames) :
    ofTemplate (frame :: below) = below.ofTemplate :=
  List.filter_cons_of_neg (by simpa using h)

theorem ofTemplate_eq_self {frames : Frames} (h : ∀ frame ∈ frames, frame.level = 0) :
    frames.ofTemplate = frames :=
  List.filter_eq_self.2 fun frame hm => decide_eq_true (h frame hm)

/-- The tokens of a value touch no block of the template. -/
theorem ofTemplate_frameStep {token : Token} {level resume : Nat} {frames frames' : Frames}
    {resolution : Resolution} (h : FrameStep token level resume frames resolution frames')
    (hl : level ≠ 0) : frames'.ofTemplate = frames.ofTemplate := by
  cases h with
  | written hw => rfl
  | defined hk => rfl
  | skipped hs ho => exact ofTemplate_of_pos hl _
  | ifOpened truthy hs hk => exact ofTemplate_of_pos hl _
  | whileOpened truthy hs hk => exact ofTemplate_of_pos hl _
  | eachEmpty hs hk => exact ofTemplate_of_pos hl _
  | eachOpened items hs hk => exact ofTemplate_of_pos hl _
  | elseMarked hk ht htl => exact ofTemplate_of_pos hl _
  | ifClosed hk ht htl => exact (ofTemplate_of_pos (htl ▸ hl) _).symm
  | elseClosed hk hm hml ht htl =>
    rw [ofTemplate_of_pos (hml ▸ hl), ofTemplate_of_pos (htl ▸ hl)]
  | loopClosed hk htl => exact (ofTemplate_of_pos (htl ▸ hl) _).symm
  | loopAgain items hk htl ht hi =>
    rw [ofTemplate_of_pos (by exact htl ▸ hl), ofTemplate_of_pos (htl ▸ hl)]

/-- A token that starts a block over leaves all but its next item. -/
theorem exists_of_again {token : Token} {level resume : Nat} {frames below : Frames} {top : Frame}
    {resolution : Resolution}
    (h : FrameStep token level resume frames resolution (top :: below))
    (ha : resolution.action = .again) :
    ∃ frame items, frames = frame :: below ∧ top = { frame with items } := by
  generalize hf : top :: below = frames' at h
  cases h with
  | written hw => exact ⟨top, top.items, hf.symm, rfl⟩
  | @loopAgain frame _ items hk hl ht hi =>
    obtain ⟨rfl, rfl⟩ := List.cons.inj hf
    exact ⟨frame, items, rfl, rfl⟩
  | _ => cases ha

end Frames

namespace Rendering
variable {κ σ : Type}

/-! ### Passages -/

/-- Each passage stands in as many others as its level says. -/
def Leveled : List (Passage σ) → Prop
  | [] => True
  | passage :: outer => passage.level = outer.length ∧ Leveled outer

theorem outermost_of_outer {r r' : Rendering κ σ} (h : r'.outer = r.outer) (hn : r.outer ≠ []) :
    r'.outermost = r.outermost := by
  obtain ⟨passage, outer, ho⟩ := List.exists_cons_of_ne_nil hn
  rw [outermost, outermost, h, ho, List.getLast?_cons, Option.getD_some, Option.getD_some]

theorem outermost_enter (r : Rendering κ σ) (value : List Char) (id : Nat) :
    (r.enter value id).outermost = r.outermost := by
  show (r.passage :: r.outer).getLast?.getD _ = r.outer.getLast?.getD r.passage
  rw [List.getLast?_cons, Option.getD_some]

theorem outermost_leave {r : Rendering κ σ} {passage : Passage σ} {outer : List (Passage σ)}
    (h : r.outer = passage :: outer) :
    ({ r with passage, outer } : Rendering κ σ).outermost = r.outermost := by
  show outer.getLast?.getD passage = r.outer.getLast?.getD r.passage
  rw [h, List.getLast?_cons, Option.getD_some]

/-- What a step that goes on leads to: a token was resolved and carried out, or a passage was left. -/
theorem step_running [CharSource σ] {host : Host κ} {r r'' : Rendering κ σ}
    (h : r.step host = .running r'') :
    (∃ raw r' token resolution state, r.meet host = .token raw r' ∧
      r'.Resolves host raw token resolution state ∧
      carryOut host (({ r' with state } : Rendering κ σ).followLoop token.kind resolution.action)
        token.id resolution = .running r'') ∨
      ∃ r' passage outer, r.meet host = .ending r' ∧ r'.outer = passage :: outer ∧
        r'' = { r' with passage, outer } := by
  rw [step_eq] at h
  cases hm : r.meet host with
  | failure e r' =>
    rw [hm] at h
    cases h
  | ending r' =>
    rw [hm] at h
    rcases r'.leave_cases with ⟨e, he, _⟩ | ⟨_, ⟨_, hd⟩ | ⟨passage, outer, ho, hd⟩⟩
    · cases he.symm.trans h
    · cases hd.symm.trans h
    · cases hd.symm.trans h
      exact .inr ⟨r', passage, outer, rfl, ho, rfl⟩
  | token raw r' =>
    rw [hm] at h
    rcases act_cases host r' raw with ⟨token, resolution, state, hres⟩ | ⟨e, state, he, _⟩
    · exact .inl ⟨raw, r', token, resolution, state, rfl, hres, (act_of_resolves hres).symm.trans h⟩
    · cases he.symm.trans h

theorem replay_running {r r' : Rendering κ σ} {id : Nat} (h : r.replay id = .running r') :
    ∃ offset window, r.state.frames.head?.bind (·.resume) = some offset ∧
      r.passage.window.seek offset = .ok window ∧ r' = r.withWindow window := by
  unfold replay at h
  split at h
  · cases h
  · next offset ho =>
    split at h
    · cases h
    · next window hw =>
      cases h
      exact ⟨offset, window, ho, hw, rfl⟩

/-- A rendering is finished where the template ends and none of its blocks is open. -/
theorem step_finished [CharSource σ] {host : Host κ} {r r'' : Rendering κ σ}
    (h : r.step host = .finished r'') :
    r.meet host = .ending r'' ∧ r''.outer = [] ∧
      r''.state.frames.length ≤ r''.passage.opened := by
  rw [step_eq] at h
  cases hm : r.meet host with
  | failure e r' =>
    rw [hm] at h
    cases h
  | ending r' =>
    rw [hm] at h
    rcases r'.leave_cases with ⟨e, he, _⟩ | ⟨hle, ⟨ho, hd⟩ | ⟨passage, outer, ho, hd⟩⟩
    · cases he.symm.trans h
    · cases hd.symm.trans h
      exact ⟨rfl, ho, hle⟩
    · cases hd.symm.trans h
  | token raw r' =>
    rw [hm] at h
    rcases act_cases host r' raw with ⟨token, resolution, state, hres⟩ | ⟨e, state, he, _⟩
    · have h := (act_of_resolves hres).symm.trans h
      rcases carryOut_cases host
        (({ r' with state } : Rendering κ σ).followLoop token.kind resolution.action) token.id
        resolution with ⟨sink, hr⟩ | ⟨value, _, hr⟩ | ⟨e, r₁, hr, _⟩ | ⟨_, hr⟩
      · cases hr.symm.trans h
      · cases hr.symm.trans h
      · cases hr.symm.trans h
      · rcases replay_cases _ token.id with ⟨window, hre⟩ | ⟨e, hre⟩
        · cases (hr.trans hre).symm.trans h
        · cases (hr.trans hre).symm.trans h
    · cases he.symm.trans h

/-- Carrying a resolution out touches the window only to go back, or begins a passage. -/
theorem carryOut_running {host : Host κ} {r r' : Rendering κ σ} {id : Nat} {resolution : Resolution}
    (h : carryOut host r id resolution = .running r') :
    (∃ sink, r' = { r with sink }) ∨
      (∃ value, resolution = ⟨.replace, some value⟩ ∧ r' = r.enter value.toList id) ∨
      (resolution.action = .again ∧ ∃ offset window, r.passage.window.seek offset = .ok window ∧
        r' = r.withWindow window) := by
  rcases carryOut_cases host r id resolution with
    ⟨sink, hr⟩ | ⟨value, hv, hr⟩ | ⟨e, r₁, hr, _⟩ | ⟨ha, hr⟩
  · cases hr.symm.trans h
    exact .inl ⟨sink, rfl⟩
  · cases hr.symm.trans h
    exact .inr (.inl ⟨value, hv, rfl⟩)
  · cases hr.symm.trans h
  · obtain ⟨offset, window, _, hw, rfl⟩ := replay_running (hr.symm.trans h)
    exact .inr (.inr ⟨ha, offset, window, hw, rfl⟩)

variable [CharSource σ] {host : Host κ} {r r' r'' : Rendering κ σ}

theorem leveled_step (h : Leveled r.passages) (hs : r.step host = .running r'') :
    Leveled r''.passages := by
  have hreads := readsTo_meet host r
  rcases step_running hs with ⟨raw, r', token, resolution, state, hm, _, hc⟩ |
    ⟨r', passage, outer, hm, ho, rfl⟩
  · rw [hm] at hreads
    obtain ⟨window, pool, sink, rfl⟩ : r.ReadsTo r' := hreads
    rw [followLoop_eq] at hc
    rcases carryOut_running hc with ⟨_, rfl⟩ | ⟨_, _, rfl⟩ | ⟨_, _, _, _, rfl⟩
    · exact h
    · exact ⟨congrArg (· + 1) h.1, h⟩
    · exact h
  · rw [hm] at hreads
    have houter : r'.outer = r.outer := hreads.outer_eq
    rw [passages, ← houter, ho] at h
    exact h.2

/-- While a value is rendered, the template and its blocks lie where they are. -/
theorem outermost_of_nested (h : Leveled r.passages) (hn : r.outer ≠ [])
    (hs : r.step host = .running r'') :
    r''.outermost = r.outermost ∧ r''.state.frames.ofTemplate = r.state.frames.ofTemplate := by
  have hlevel : r.passage.level ≠ 0 := by
    rw [h.1]
    exact Nat.ne_of_gt (List.length_pos_of_ne_nil hn)
  have hreads := readsTo_meet host r
  rcases step_running hs with ⟨raw, r', token, resolution, state, hm, hres, hc⟩ |
    ⟨r', passage, outer, hm, ho, rfl⟩
  · rw [hm] at hreads
    obtain ⟨window, pool, sink, rfl⟩ : r.ReadsTo r' := hreads
    have hstep := Host.frameStep_of_interpret hres.interpret
    have hframes : state.frames.ofTemplate = r.state.frames.ofTemplate :=
      Frames.ofTemplate_frameStep hstep hlevel
    rw [followLoop_eq] at hc
    rcases carryOut_running hc with ⟨_, rfl⟩ | ⟨_, _, rfl⟩ | ⟨_, _, _, _, rfl⟩
    · exact ⟨outermost_of_outer rfl hn, hframes⟩
    · rw [outermost_enter]
      exact ⟨outermost_of_outer rfl hn, hframes⟩
    · exact ⟨outermost_of_outer rfl hn, hframes⟩
  · rw [hm] at hreads
    obtain ⟨window, pool, sink, rfl⟩ : r.ReadsTo r' := hreads
    rw [outermost_leave ho]
    exact ⟨outermost_of_outer rfl hn, rfl⟩

/-! ### Reading the template -/

theorem draws_meet (host : Host κ) (r : Rendering κ σ) :
    r.passage.window.Draws (r.meet host).rendering.passage.window :=
  meet_invariant (P := fun r' => r.passage.window.Draws r'.passage.window)
    (fun r' h => h.trans (r'.passage.window.draws_span r'.pool)) (fun _ count h => h.advance count)
    (fun r' text h => by rw [window_writeLiteral]; exact h) host (.refl _)

section Template
variable [FaithfulSource σ] {g : Token.Grammar} {text raw : List Char}

/-- The end of a token is not all that is at hand. -/
theorem residentStart_lt_of_readToken {scan : CloseScan} (h : r.passage.window.Shows text)
    (hp : r.readToken scan = (.ok (some raw), r')) :
    r'.passage.window.residentStart < r'.passage.window.cursor := by
  fun_induction Rendering.readToken scan r with
  | case1 => cases hp
  | case2 => cases hp
  | case3 scan r c cs r₁ hspan scanned r₂ hfound =>
    obtain ⟨_, rfl⟩ := Prod.mk.inj hp
    have hshows := (goesOnTo_span h hspan).1.window.shows
    exact Nat.lt_of_le_of_lt hshows.start_le
      (Nat.lt_add_of_pos_right (consumed_scanWith_pos ..))
  | case4 scan r c cs r₁ hspan scanned r₂ hfound ih =>
    obtain ⟨hgoes, -, -⟩ := goesOnTo_advance h hspan (consumed_le_length scan (c :: cs))
    exact ih hgoes.window.shows hp

theorem residentStart_lt_of_meet (h : r.passage.window.Shows text) (hl : r.passage.level = 0)
    (hm : r.meet host = .token raw r') :
    r'.passage.window.residentStart < r'.passage.window.cursor := by
  have hflush : (textScan host 0).Flushable := TextScan.flushable_plain host.left
  have hcomes := comesUpon_meet host r
  rw [hm] at hcomes
  cases hcomes with
  | token ht hr =>
    rw [hl] at ht
    exact residentStart_lt_of_readToken (pass_of_passText h hflush ht).1 hr

/-- In the template all open blocks are its own. -/
theorem Tracked.reads (h : r.Tracked host g text) (hl : Leveled r.passages) (ho : r.outer = []) :
    r.Reads host g text text r.state.frames [] ∧ ∀ frame ∈ r.state.frames, frame.level = 0 := by
  obtain ⟨value, own, below, hreads⟩ := h
  have hlevel : r.passage.level = 0 := by
    rw [hl.1, ho]
    rfl
  have hbelow : below = [] := by
    refine List.eq_nil_iff_forall_not_mem.2 fun frame hm => ?_
    have := hreads.lower frame hm
    omega
  subst hbelow
  obtain rfl := hreads.outermost ho
  have hown : r.state.frames = own := by rw [hreads.frames, List.append_nil]
  rw [hown]
  refine ⟨hreads, fun frame hm => ?_⟩
  rw [(hreads.tracks.placed frame hm).level_eq, hlevel]

/-- What a token of the template, which the rendering `r'` is behind, does to the window on the template
and to the open blocks. -/
inductive Advances (r r' : Rendering κ σ) (token : Token) (r'' : Rendering κ σ) : Prop
  /-- A loop starts over. -/
  | again {frame : Frame} {below : Frames} {items : Option (List String)} {offset : Nat}
      (hf : r.state.frames = frame :: below) (hf' : r''.state.frames = { frame with items } :: below)
      (ho : frame.resume = some offset)
      (hw : r''.outermost.window = { r'.passage.window with cursor := offset }) :
      Advances r r' token r''
  /-- The rendering goes on behind the token. -/
  | onward {resolution : Resolution} (ha : resolution.action ≠ .again)
      (hf : FrameStep token 0 r'.passage.window.cursor r.state.frames resolution r''.state.frames)
      (hw : r''.outermost.window =
        (follow r'.passage.window token.kind resolution.action r'.pool).1) : Advances r r' token r''

/-- A step in the template meets a token, and all open blocks are still its own. -/
theorem exists_advances (h : r.Tracked host g text) (hl : Leveled r.passages) (ho : r.outer = [])
    (hs : r.step host = .running r'') :
    ∃ raw r' token, r.meet host = .token raw r' ∧ r'.passage.window.Shows text ∧
      g.classify r'.counted.tokens raw = .ok token ∧
      (∀ frame ∈ r''.state.frames, frame.level = 0) ∧ r.Advances r' token r'' := by
  obtain ⟨hreads, _⟩ := h.reads hl ho
  have hzero : r.passage.level = 0 := by
    rw [hl.1, ho]
    rfl
  rcases step_running hs with ⟨raw, r', token, resolution, state, hm, hres, hc⟩ |
    ⟨r', passage, outer, hm, ho', _⟩
  · have hmeets : r.Meets host text (r.meet host) := meets_meet hreads.tracks.shows
    rw [hm] at hmeets
    cases hmeets with
    | token hgoes ht =>
      have hreads' := hreads.goesOnTo hgoes
      have hclassify : g.classify r'.counted.tokens raw = .ok token := by
        rw [← hreads'.grammar]
        exact hres.classify
      have hlevel : r'.passage.level = 0 := by
        rw [hgoes.passage]
        exact hzero
      have hstep := Host.frameStep_of_interpret hres.interpret
      have hframes : r'.counted.frames = r.state.frames := congrArg (·.frames) hgoes.state
      rw [hframes, hlevel] at hstep
      have hall : ∀ frame ∈ state.frames, frame.level = 0 := by
        obtain ⟨_, own, hown⟩ := hreads'.resolves ht hres
        rw [followLoop_eq] at hown
        have hf : state.frames = own ++ [] := hown.frames
        rw [hf, List.append_nil]
        intro frame hmem
        have hl : frame.level = r'.passage.level := (hown.tracks.placed frame hmem).level_eq
        rw [hl, hlevel]
      have houter : r'.outer = [] := hgoes.outer.trans ho
      refine ⟨raw, r', token, hm, hgoes.window.shows, hclassify, ?_⟩
      by_cases ha : resolution.action = .again
      · have hover : r.StartsOver host r' token state := ⟨raw, resolution, hm, hres, ha⟩
        obtain ⟨offset, window, hhead, hseek, rfl⟩ :=
          replay_running (hover.step_eq_replay.symm.trans hs)
        have hhead : state.frames.head?.bind (·.resume) = some offset := hhead
        have hwindow : window = { r'.passage.window with cursor := offset } :=
          Window.eq_of_seek hseek
        refine ⟨hall, ?_⟩
        cases hst : state.frames with
        | nil =>
          rw [hst] at hhead
          cases hhead
        | cons top below =>
          rw [hst] at hhead hstep
          obtain ⟨frame, items, hf, rfl⟩ := Frames.exists_of_again hstep ha
          refine .again hf hst hhead ?_
          rw [outermost,
            show (({ r' with state } : Rendering κ σ).withWindow window).outer = [] from houter]
          exact hwindow
      · rw [followLoop_eq] at hc
        rcases carryOut_running hc with ⟨sink, rfl⟩ | ⟨value, _, rfl⟩ | ⟨hagain, _⟩
        · refine ⟨hall, .onward ha hstep ?_⟩
          rw [outermost, show ({ r' with state } : Rendering κ σ).outer = [] from houter]
          rfl
        · refine ⟨hall, .onward ha hstep ?_⟩
          rw [outermost_enter, outermost,
            show ({ r' with state } : Rendering κ σ).outer = [] from houter]
          rfl
        · exact absurd hagain ha
  · have houter : r'.outer = r.outer := by
      have hreads := readsTo_meet host r
      rw [hm] at hreads
      exact hreads.outer_eq
    rw [houter, ho] at ho'
    cases ho'

/-- A rendering all of whose passages are tracked, and whose window on the template keeps what it may
need. -/
structure Retaining (host : Host κ) (g : Token.Grammar) (text : List Char)
    (opened : Nat → Nat → Prop) (r : Rendering κ σ) : Prop where
  tracked : r.Tracked host g text
  leveled : Leveled r.passages
  retains : Retains (host.next g text) opened r.state.frames.ofTemplate r.outermost.window

namespace Retaining
variable {opened : Nat → Nat → Prop}

/-- A token of the template leaves its window with what the loops may need. -/
theorem retains_of_template (h : r.Retaining host g text opened) (ho : r.outer = [])
    (hopened : ∀ raw r', r.meet host = .token raw r' →
      opened r'.counted.tokens r'.passage.window.cursor)
    (hs : r.step host = .running r'') :
    Retains (host.next g text) opened r''.state.frames.ofTemplate r''.outermost.window := by
  obtain ⟨hreads, hlevel⟩ := h.tracked.reads h.leveled ho
  have hzero : r.passage.level = 0 := by
    rw [h.leveled.1, ho]
    rfl
  have hshows := hreads.tracks.shows
  have hgrowth := hreads.tracks.growth
  have hretains : Retains (host.next g text) opened r.state.frames r.passage.window := by
    have := h.retains
    rwa [Frames.ofTemplate_eq_self hlevel, outermost, ho] at this
  obtain ⟨raw, r', token, hm, hshows', hclassify, hall, hadvances⟩ :=
    exists_advances h.tracked h.leveled ho hs
  have hdraws := draws_meet host r
  rw [hm] at hdraws
  have hn := next_of_meet hshows hzero hm (Token.Grammar.read_of_classify hclassify)
  rw [Frames.ofTemplate_eq_self hall]
  cases hadvances with
  | @again frame below items offset hf hf' hresume hw =>
    have hmem : frame ∈ r.state.frames := by
      rw [hf]
      exact List.mem_cons_self
    have hk : frame.kind.isLoop = true :=
      (hreads.tracks.placed frame hmem).isLoop (by rw [hresume]; nofun)
    rw [hf] at hretains hgrowth
    rw [hf', hw]
    exact hretains.again hdraws hgrowth Host.lt_of_next hn hk hresume items
  | onward ha hf hw =>
    have hloop : ∀ frame ∈ r.state.frames, frame.resume ≠ none → frame.kind.isLoop = true :=
      fun frame hmem => (hreads.tracks.placed frame hmem).isLoop
    rw [hw]
    exact hretains.behind hdraws hgrowth Host.lt_of_next hn hshows'
      (residentStart_lt_of_meet hshows hzero hm)
      (Token.Grammar.id_of_classify hclassify ▸ hopened raw r' hm) hloop hf ha r'.pool

theorem step (h : r.Retaining host g text opened)
    (hopened : ∀ raw r', r.outer = [] → r.meet host = .token raw r' →
      opened r'.counted.tokens r'.passage.window.cursor)
    (hs : r.step host = .running r'') : r''.Retaining host g text opened where
  tracked := by
    have := h.tracked.step
    rwa [hs] at this
  leveled := leveled_step h.leveled hs
  retains := by
    by_cases ho : r.outer = []
    · exact h.retains_of_template ho (fun raw r' => hopened raw r' ho) hs
    · obtain ⟨hout, hframes⟩ := outermost_of_nested h.leveled ho hs
      rw [hout, hframes]
      exact h.retains

/-- At the end of the template one segment is kept at most. -/
theorem length_le_of_finished (h : r.Retaining host g text opened)
    (hs : r.step host = .finished r'') : r''.outermost.window.segments.length ≤ 1 := by
  obtain ⟨hm, ho, hclosed⟩ := step_finished hs
  have hread := readsTo_meet host r
  have hdraws := draws_meet host r
  rw [hm] at hread hdraws
  have houter : r.outer = [] := hread.outer_eq.symm.trans ho
  obtain ⟨hreads, hlevel⟩ := h.tracked.reads h.leveled houter
  have hnone : r.state.frames = [] := by
    obtain ⟨window, pool, sink, rfl⟩ : r.ReadsTo r'' := hread
    have hopened : r.passage.opened = 0 := hreads.opened
    exact List.eq_nil_of_length_eq_zero (Nat.le_zero.1 (hopened ▸ hclosed))
  have hretains := h.retains
  rw [Frames.ofTemplate_eq_self hlevel, hnone, outermost, houter] at hretains
  have hgrowth := hreads.tracks.growth
  rw [hnone] at hgrowth
  rw [outermost, ho]
  exact hdraws.single hgrowth (hretains.single rfl)

end Retaining

end Template

/-! ### Runs -/

theorem run_succ_running {steps : Nat} :
    r.run host (steps + 1) = .running r'' ↔
      ∃ r', r.run host steps = .running r' ∧ r'.step host = .running r'' := by
  rw [run_succ_last]
  cases hr : r.run host steps with
  | running r' =>
    constructor
    · intro h
      exact ⟨r', rfl, h⟩
    · rintro ⟨_, he, h⟩
      cases he
      exact h
  | finished r' => exact ⟨nofun, fun ⟨_, he, _⟩ => nomatch he⟩
  | failed e r' => exact ⟨nofun, fun ⟨_, he, _⟩ => nomatch he⟩

/-- A run that ended did so in one of its steps, and is there since. -/
theorem exists_of_run_ended {steps : Nat} {progress : Progress κ σ}
    (h : r.run host steps = progress) (hn : ∀ r', progress ≠ .running r') :
    ∃ last r', last < steps ∧ r.run host last = .running r' ∧ r'.step host = progress ∧
      ∀ n, last < n → n ≤ steps → r.run host n = progress := by
  induction steps with
  | zero => exact absurd h.symm (hn r)
  | succ steps ih =>
    by_cases hrunning : ∃ r', r.run host steps = .running r'
    · obtain ⟨r', hr⟩ := hrunning
      refine ⟨steps, r', Nat.lt_succ_self _, hr, ?_, fun n hlt hle => ?_⟩
      · rw [← h, run_succ_last, hr]
      · obtain rfl : n = steps + 1 := by omega
        exact h
    · have hr : r.run host steps = progress := by
        rw [run_succ_last] at h
        split at h
        · next r' hr => exact absurd ⟨r', hr⟩ hrunning
        · exact h
      obtain ⟨last, r', hlt, hrun, hstep, hsince⟩ := ih hr
      refine ⟨last, r', Nat.lt_succ_of_lt hlt, hrun, hstep, fun n hn hle => ?_⟩
      rcases Nat.lt_or_eq_of_le hle with hearly | rfl
      · exact hsince n hn (Nat.le_of_lt_succ hearly)
      · exact h

/-- Tokens are numbered in the order in which they are met. -/
theorem tokens_step (h : r.step host = .running r'') :
    r.state.tokens ≤ r''.state.tokens ∧
      ∀ raw r', r.meet host = .token raw r' → r''.state.tokens = r.state.tokens + 1 := by
  have hread := readsTo_meet host r
  rcases step_running h with ⟨raw, r', token, resolution, state, hm, hres, hc⟩ |
    ⟨r', passage, outer, hm, ho, rfl⟩
  · rw [hm] at hread
    have htokens : state.tokens = r.state.tokens + 1 := by
      have hkept := Host.tokens_interpret host token r'.passage.level r'.passage.window.cursor
        r'.counted
      rw [hres.interpret] at hkept
      rw [hkept, ← hread.state_eq]
      rfl
    have hafter : r''.state.tokens = state.tokens := by
      rw [followLoop_eq] at hc
      rcases carryOut_running hc with ⟨_, rfl⟩ | ⟨_, _, rfl⟩ | ⟨_, _, _, _, rfl⟩ <;> rfl
    rw [hafter, htokens]
    exact ⟨Nat.le_succ _, fun _ _ _ => rfl⟩
  · rw [hm] at hread
    refine ⟨Nat.le_of_eq ?_, fun raw r₁ hm' => ?_⟩
    · rw [← hread.state_eq]
      rfl
    · rw [hm] at hm'
      cases hm'

theorem tokens_le_of_run {steps more : Nat} (h : r.run host steps = .running r')
    (h' : r.run host (steps + more) = .running r'') : r'.state.tokens ≤ r''.state.tokens := by
  induction more generalizing r'' with
  | zero =>
    cases h.symm.trans h'
    exact Nat.le_refl _
  | succ more ih =>
    obtain ⟨r₁, hr, hs⟩ := run_succ_running.1 h'
    exact Nat.le_trans (ih hr) (tokens_step hs).1

/-- The rendering that began so met the token with that number in the template, which ends at that
offset. -/
def PassedAt (host : Host κ) (start : Rendering κ σ) (id offset : Nat) : Prop :=
  ∃ steps r raw r', start.run host steps = .running r ∧ r.outer = [] ∧
    r.meet host = .token raw r' ∧ r'.counted.tokens = id ∧ r'.passage.window.cursor = offset

theorem exists_of_run_add {steps more : Nat} (h : r.run host (steps + more) = .running r'') :
    ∃ r', r.run host steps = .running r' := by
  induction more generalizing r'' with
  | zero => exact ⟨r'', h⟩
  | succ more ih =>
    obtain ⟨r', hr, _⟩ := run_succ_running.1 h
    exact ih hr

/-- A token that is met later has a higher number. -/
theorem tokens_lt_of_run {steps steps' : Nat} {start s : Rendering κ σ} {raw : List Char}
    (hlt : steps < steps') (hr : start.run host steps = .running r)
    (hm : r.meet host = .token raw r') (hs : start.run host steps' = .running s) :
    r.state.tokens < s.state.tokens := by
  obtain ⟨more, rfl⟩ := Nat.exists_eq_add_of_lt hlt
  rw [Nat.add_right_comm] at hs
  obtain ⟨behind, hbehind⟩ := exists_of_run_add hs
  obtain ⟨r₁, hr₁, hstep⟩ := run_succ_running.1 hbehind
  cases hr.symm.trans hr₁
  have hone : behind.state.tokens = r.state.tokens + 1 := (tokens_step hstep).2 raw r' hm
  have hle : behind.state.tokens ≤ s.state.tokens := tokens_le_of_run hbehind hs
  omega

/-- Every token has a number of its own. -/
theorem PassedAt.unique {start : Rendering κ σ} {id offset offset' : Nat}
    (h : start.PassedAt host id offset) (h' : start.PassedAt host id offset') : offset' = offset := by
  obtain ⟨steps, r, raw, r', hrun, _, hm, hid, rfl⟩ := h
  obtain ⟨steps', s, raw', s', hrun', _, hm', hid', rfl⟩ := h'
  have hr := readsTo_meet host r
  have hs := readsTo_meet host s
  rw [hm] at hr
  rw [hm'] at hs
  have hsame : r.state.tokens + 1 = s.state.tokens + 1 := by
    rw [← hr.state_eq, ← hs.state_eq]
    exact hid.trans hid'.symm
  rcases Nat.lt_trichotomy steps steps' with hlt | rfl | hlt
  · have := tokens_lt_of_run hlt hrun hm hrun'
    omega
  · cases hrun.symm.trans hrun'
    cases hm.symm.trans hm'
    rfl
  · have := tokens_lt_of_run hlt hrun' hm' hrun
    omega

/-- What is kept of a template between two tokens, by a rendering that began as `start`. -/
structure KeepsNeeded (host : Host κ) (r start : Rendering κ σ) : Prop where
  /-- One segment at most, where no loop of the template is open. -/
  closed : (∀ frame ∈ r.state.frames.ofTemplate, frame.kind.isLoop = false) →
    r.outermost.window.segments.length ≤ 1
  /-- Where loops are open, the first segment holds the last character of the token that opened the
  outermost. -/
  opened : ∀ frame, r.state.frames.ofTemplate.outermostLoop? = some frame →
    ∃ offset, (∀ offset', start.PassedAt host frame.token.id offset' ↔ offset' = offset) ∧
      0 < offset ∧ r.outermost.window.FrontHolds (offset - 1)

/-- However far a rendering has come, it keeps of the template what it may need. -/
def NeededKept (host : Host κ) (start : Rendering κ σ) : Progress κ σ → Prop
  | .running r => r.KeepsNeeded host start
  | .finished r => r.outermost.window.segments.length ≤ 1
  | .failed _ _ => True

section Template
variable [FaithfulSource σ] {g : Token.Grammar} {text : List Char} {start : Rendering κ σ}

theorem Retaining.keepsNeeded (h : r.Retaining host g text (start.PassedAt host)) :
    r.KeepsNeeded host start where
  closed hnone := by
    refine h.retains.single (List.countP_eq_zero.2 fun frame hm => ?_)
    rw [hnone frame hm]
    exact Bool.false_ne_true
  opened frame hf := by
    obtain ⟨offset, hpassed, hpos, hfront⟩ := h.retains.front frame hf
    refine ⟨offset, fun offset' => ⟨fun h' => hpassed.unique h', fun he => ?_⟩, hpos, hfront⟩
    rw [he]
    exact hpassed

theorem Retaining.run (h : start.Retaining host g text (start.PassedAt host)) {steps : Nat}
    (hr : start.run host steps = .running r) :
    r.Retaining host g text (start.PassedAt host) := by
  induction steps generalizing r with
  | zero =>
    cases hr
    exact h
  | succ steps ih =>
    obtain ⟨r', hr', hs⟩ := run_succ_running.1 hr
    exact (ih hr').step (fun raw behind ho hm => ⟨steps, r', raw, behind, hr', ho, hm, rfl, rfl⟩) hs

/-- **A window over a source keeps what the loops may need, and nothing else**: between any two tokens of
any rendering it keeps at most one segment, or, while loops of the template are open, no segment in front
of the one with the end of the outermost loop's opening token. This is so for every template and size of
the segments, in whatever pieces the source gives the template, and whatever a callback does. -/
theorem neededKept_of_run (host : Host κ) (source : σ) (size : Nat) (vars : Variables) (memory : κ)
    (pool : Pool) (sink : Sink) (steps : Nat) :
    let start : Rendering κ σ :=
      .start (.streaming source size) 0 { vars, memory } pool sink
    NeededKept host start (start.run host steps) := by
  intro start
  have hnone : ∀ frame ∈ ({ vars, memory } : RenderState κ).frames, frame.level < 0 := nofun
  have htracked : start.Tracked host (host.grammar vars) (FaithfulSource.rest source) :=
    tracked_start pool sink (Window.shows_streaming source size) rfl hnone
  have hstart : start.Retaining host (host.grammar vars) (FaithfulSource.rest source)
      (start.PassedAt host) := ⟨htracked, ⟨rfl, trivial⟩, Retains.fresh _ rfl⟩
  cases hr : start.run host steps with
  | running r => exact (hstart.run hr).keepsNeeded
  | finished r =>
    obtain ⟨steps', r', -, hr', hs, -⟩ := exists_of_run_ended hr nofun
    exact (hstart.run hr').length_le_of_finished hs
  | failed e r => trivial

end Template

end Rendering

end Stencil
