import Stencil.Proofs.Descent

/-! A rendering comes to an end.

Values may define each other, stand in each other and be gone through by loops, in any circle; but they
stand in each other no deeper than the options allow (`Shallow.run`), and each loop over items comes
to its last one. So with every step less can come of a rendering (`Paced.step`), unless a `while` is
rendered, and it comes to an end (`shallow_and_ends`). -/
namespace Stencil

/-! ### The cursor -/

namespace Rendering
variable {κ σ : Type} [CharSource σ] {host : Host κ} {r r' : Rendering κ σ}

theorem cursor_of_span {result : Except RenderError (List Char)} (h : r.span = (result, r')) :
    r'.passage.window.cursor = r.passage.window.cursor := by
  obtain ⟨window, pool, hw, rfl⟩ := of_span h
  have hcursor := Window.cursor_span r.passage.window r.pool
  rw [hw] at hcursor
  exact hcursor

omit [CharSource σ] in
theorem cursor_of_writeLiteral {text : List Char} {result : Except RenderError Unit}
    (h : r.writeLiteral text = (result, r')) :
    r'.passage.window.cursor = r.passage.window.cursor := by
  obtain ⟨sink, rfl, _⟩ := writeLiteral_eq h
  rfl

/-- Whatever is scanned of some characters, the cursor moves on. -/
theorem cursor_lt_of_scan {c : Char} {cs : List Char} {count : Nat}
    (hs : r.span = (.ok (c :: cs), r')) (hc : 0 < count) :
    r.passage.window.cursor < (r'.advance count).passage.window.cursor := by
  rw [← cursor_of_span hs]
  exact Nat.lt_add_of_pos_right hc

/-- A left delimiter is behind the cursor. -/
theorem cursor_lt_of_passText {scan : TextScan} (h : r.passText scan = (.ok true, r')) :
    r.passage.window.cursor < r'.passage.window.cursor := by
  fun_induction Rendering.passText scan r with
  | case1 => cases h
  | case2 => cases h
  | case3 => cases h
  | case4 => cases h
  | case5 scan r c cs r₁ hspan scanned r₂ hfound r₃ hw =>
    cases h
    rw [cursor_of_writeLiteral hw]
    exact cursor_lt_of_scan hspan (consumed_scanWith_pos ..)
  | case6 => cases h
  | case7 scan r c cs r₁ hspan scanned r₂ hfound taken r₃ hw ih =>
    refine Nat.lt_trans ?_ (ih h)
    rw [cursor_of_writeLiteral hw]
    exact cursor_lt_of_scan hspan (consumed_scanWith_pos ..)

/-- Reading a token does not go back. -/
theorem cursor_le_of_readToken {scan : CloseScan} {raw : List Char}
    (h : r.readToken scan = (.ok (some raw), r')) :
    r.passage.window.cursor ≤ r'.passage.window.cursor := by
  fun_induction Rendering.readToken scan r with
  | case1 => cases h
  | case2 => cases h
  | case3 scan r c cs r₁ hspan scanned r₂ hfound =>
    obtain ⟨-, rfl⟩ := Prod.mk.inj h
    exact Nat.le_of_lt (cursor_lt_of_scan hspan (consumed_scanWith_pos ..))
  | case4 scan r c cs r₁ hspan scanned r₂ hfound ih =>
    exact Nat.le_trans (Nat.le_of_lt (cursor_lt_of_scan hspan (consumed_scanWith_pos ..))) (ih h)

/-- A token that is met is behind the cursor. -/
theorem cursor_lt_of_meet {raw : List Char} (h : r.meet host = .token raw r') :
    r.passage.window.cursor < r'.passage.window.cursor := by
  have hcomes := comesUpon_meet host r
  rw [h] at hcomes
  cases hcomes with
  | token ht hr => exact Nat.lt_of_lt_of_le (cursor_lt_of_passText ht) (cursor_le_of_readToken hr)

/-! ### How deep values are -/

omit [CharSource σ]

/-- No passage is deeper in values than that. -/
def Shallow (limit : Nat) (r : Rendering κ σ) : Prop :=
  ∀ p ∈ r.passage :: r.outer, p.level ≤ limit

theorem Shallow.readsTo {limit : Nat} (h : r.Shallow limit) (hr : r.ReadsTo r') :
    r'.Shallow limit := by
  obtain ⟨_, _, _, rfl⟩ := hr
  exact List.forall_mem_cons.2 (List.forall_mem_cons.1 h)

theorem Shallow.emit {limit : Nat} (h : r.Shallow limit) (text : List Char) :
    (r.emit text).rendering.Shallow limit := by
  unfold Rendering.emit Rendering.write
  cases r.sink.write text with
  | mk result sink =>
    cases result with
    | ok _ => exact h
    | error e => exact h

/-- A value is rendered only if it is not too deep. -/
theorem Shallow.carryOut (h : r.Shallow host.options.maxDepth) (id : Nat) (resolution : Resolution) :
    (carryOut host r id resolution).rendering.Shallow host.options.maxDepth := by
  unfold Rendering.carryOut
  split
  · rcases replay_cases r id with ⟨window, hre⟩ | ⟨e, hre⟩
    · rw [hre]
      exact List.forall_mem_cons.2 (List.forall_mem_cons.1 h)
    · rw [hre]
      exact h
  · exact h
  · exact h.emit _
  · split
    · unfold expand
      split
      · split
        · exact h
        · next hle => exact List.forall_mem_cons.2 ⟨Nat.le_of_not_lt hle, h⟩
      · exact h.emit _
    · exact h

theorem Shallow.act (h : r.Shallow host.options.maxDepth) (raw : List Char) :
    (act host r raw).rendering.Shallow host.options.maxDepth := by
  rcases act_cases host r raw with ⟨token, resolution, state, hres⟩ | ⟨e, state, hf, _⟩
  · rw [act_of_resolves hres, followLoop_eq]
    have hfollow : ({ r.withWindow (follow r.passage.window token.kind resolution.action r.pool).1
        with pool := (follow r.passage.window token.kind resolution.action r.pool).2, state } :
          Rendering κ σ).Shallow host.options.maxDepth :=
      List.forall_mem_cons.2 (List.forall_mem_cons.1 h)
    exact hfollow.carryOut token.id resolution
  · rw [hf]
    exact h

theorem Shallow.leave {limit : Nat} (h : r.Shallow limit) : r.leave.rendering.Shallow limit := by
  rcases leave_cases r with ⟨e, hr, _⟩ | ⟨_, ⟨_, hr⟩ | ⟨p, outer, ho, hr⟩⟩
  · rw [hr]
    exact h
  · rw [hr]
    exact h
  · rw [hr]
    have houter := (List.forall_mem_cons.1 h).2
    rw [ho] at houter
    exact houter

/-- No step begins a passage that is too deep. -/
theorem Shallow.step [CharSource σ] (h : r.Shallow host.options.maxDepth) :
    (r.step host).rendering.Shallow host.options.maxDepth := by
  have hreads := readsTo_meet host r
  rw [step_eq]
  cases hm : r.meet host with
  | token raw r' =>
    rw [hm] at hreads
    exact (h.readsTo hreads).act raw
  | ending r' =>
    rw [hm] at hreads
    exact (h.readsTo hreads).leave
  | failure e r' =>
    rw [hm] at hreads
    exact h.readsTo hreads

theorem Shallow.run [CharSource σ] (h : r.Shallow host.options.maxDepth) (steps : Nat) :
    (r.run host steps).rendering.Shallow host.options.maxDepth :=
  run_invariant (P := fun progress => progress.rendering.Shallow host.options.maxDepth)
    (fun _ h => h.step) h steps

end Rendering

/-! ### What is still to come -/

section
variable {κ σ : Type} [CharSource σ] [FaithfulSource σ]

/-- What can come of a passage with these blocks, and of those that it stands in. -/
def Passage.prospects (limit : Nat) (value : List Char) (own : Frames) (around : List Prospect)
    (p : Passage σ) : List Prospect :=
  ⟨limit - p.level, value.length - p.window.cursor, 0⟩ ::
    (own.prospects (limit - p.level) value.length ++ around)

/-- What can come of these passages, innermost first, with the blocks that are open in them. -/
inductive Outlook (limit : Nat) : List (Passage σ) → Frames → List Prospect → Prop
  | nil : Outlook limit [] [] []
  | passage {p : Passage σ} {outer : List (Passage σ)} {value : List Char} {own below : Frames}
      {around : List Prospect} (shows : p.window.Shows value) (opened : p.opened = below.length)
      (level_eq : ∀ frame ∈ own, frame.level = p.level)
      (lower : ∀ frame ∈ below, frame.level < p.level) (h : Outlook limit outer below around) :
      Outlook limit (p :: outer) (own ++ below) (p.prospects limit value own around)

namespace Rendering
variable {host : Host κ} {r r' : Rendering κ σ} {limit : Nat} {value : List Char}
  {own below : Frames} {around before : List Prospect}

/-- The rendering is in a passage over `value` with the blocks `own`, on top of the blocks `below` of
the passages that it stands in. -/
structure Faces (limit : Nat) (value : List Char) (own below : Frames) (around : List Prospect)
    (r : Rendering κ σ) : Prop where
  frames : r.state.frames = own ++ below
  shows : r.passage.window.Shows value
  opened : r.passage.opened = below.length
  level_eq : ∀ frame ∈ own, frame.level = r.passage.level
  lower : ∀ frame ∈ below, frame.level < r.passage.level
  outer : Outlook limit r.outer below around

/-- All that can come of the rendering, in which no `while` is rendered. -/
structure Paced (limit : Nat) (prospects : List Prospect) (r : Rendering κ σ) : Prop where
  outlook : Outlook limit (r.passage :: r.outer) r.state.frames prospects
  noWhile : r.state.frames.NoWhile

theorem Faces.outlook (h : r.Faces limit value own below around) :
    Outlook limit (r.passage :: r.outer) r.state.frames
      (r.passage.prospects limit value own around) := by
  rw [h.frames]
  exact .passage h.shows h.opened h.level_eq h.lower h.outer

theorem Faces.goesOnTo (h : r.Faces limit value own below around) (hr : r.GoesOnTo value r') :
    r'.Faces limit value own below around := by
  refine ⟨?_, hr.window.shows, ?_, ?_, ?_, ?_⟩
  · rw [hr.state]
    exact h.frames
  · rw [hr.passage]
    exact h.opened
  · rw [hr.passage]
    exact h.level_eq
  · rw [hr.passage]
    exact h.lower
  · rw [hr.outer]
    exact h.outer

/-- The window follows a token that changed the blocks of its passage. -/
theorem Faces.followLoop {own' : Frames} {state : RenderState κ}
    (h : r.Faces limit value own below around) (hf : state.frames = own' ++ below)
    (hl : ∀ frame ∈ own', frame.level = r.passage.level) (kind : Token.Kind) (action : Action) :
    (({ r with state } : Rendering κ σ).followLoop kind action).Faces limit value own' below
        around ∧
      (({ r with state } : Rendering κ σ).followLoop kind action).state = state ∧
      (({ r with state } : Rendering κ σ).followLoop kind action).passage.level = r.passage.level ∧
      (({ r with state } : Rendering κ σ).followLoop kind action).passage.window.cursor =
        r.passage.window.cursor := by
  rw [followLoop_eq]
  exact ⟨⟨hf, shows_follow h.shows kind action r.pool, h.opened, hl, h.lower, h.outer⟩, rfl, rfl,
    follow_cursor ..⟩

/-- A loop starts over at its beginning. -/
theorem Faces.replay (h : r.Faces limit value own below around) {id : Nat}
    (hr : r.replay id = .running r') :
    ∃ offset, r.state.frames.head?.bind (·.resume) = some offset ∧
      r'.state.frames = r.state.frames ∧
      Outlook limit (r'.passage :: r'.outer) r'.state.frames
        (⟨limit - r.passage.level, value.length - offset, 0⟩ ::
          (own.prospects (limit - r.passage.level) value.length ++ around)) := by
  unfold Rendering.replay at hr
  split at hr
  · cases hr
  · next offset ho =>
    split at hr
    · cases hr
    · next w hseek =>
      cases hr
      have hfaces : (r.withWindow w).Faces limit value own below around :=
        ⟨h.frames, Window.Shows.seek h.shows hseek, h.opened, h.level_eq, h.lower, h.outer⟩
      refine ⟨offset, ho, rfl, ?_⟩
      rw [← Window.cursor_of_seek hseek]
      exact hfaces.outlook

/-- A value is deeper than the passage that it stands in. -/
theorem Faces.enter (h : r.Faces limit value own below around) (inner : List Char) (id : Nat)
    (hl : r.passage.level < limit) :
    ∃ p, Prospect.Less p ⟨limit - r.passage.level, value.length - r.passage.window.cursor, 0⟩ ∧
      Outlook limit ((r.enter inner id).passage :: (r.enter inner id).outer) r.state.frames
        (p :: r.passage.prospects limit value own around) := by
  have hlower : ∀ frame ∈ r.state.frames, frame.level < r.passage.level + 1 := by
    rw [h.frames]
    refine List.forall_mem_append.2 ⟨fun frame hm => ?_, fun frame hm => ?_⟩
    · exact Nat.lt_succ_of_le (Nat.le_of_eq (h.level_eq frame hm))
    · exact Nat.lt_succ_of_lt (h.lower frame hm)
  have hfaces : (r.enter inner id).Faces limit inner [] r.state.frames
      (r.passage.prospects limit value own around) :=
    ⟨rfl, Window.shows_fixed inner, rfl, nofun, hlower, h.outlook⟩
  exact ⟨_, .depth (Nat.sub_succ_lt_self _ _ hl), hfaces.outlook⟩

/-- What a token is resolved to is done: a place takes the place of one of which more could come. -/
theorem Faces.carryOut (h : r.Faces limit value own below around) (hw : r.state.frames.NoWhile)
    (id : Nat) (resolution : Resolution) (hs : r'.Shallow limit)
    (hr : carryOut host r id resolution = .running r')
    (hmove : resolution.action ≠ .again →
      Prospect.Descends (r.passage.prospects limit value own around) before)
    (hagain : resolution.action = .again →
      ∀ offset, r.state.frames.head?.bind (·.resume) = some offset →
        Prospect.Descends
          (⟨limit - r.passage.level, value.length - offset, 0⟩ ::
            (own.prospects (limit - r.passage.level) value.length ++ around)) before) :
    ∃ after, r'.Paced limit after ∧ Prospect.Descends after before := by
  by_cases ha : resolution.action = .again
  · have hreplay : r.replay id = .running r' := by
      rw [← hr]
      unfold Rendering.carryOut
      rw [ha]
    obtain ⟨offset, ho, hstate, houtlook⟩ := h.replay hreplay
    exact ⟨_, ⟨houtlook, hstate ▸ hw⟩, hagain ha offset ho⟩
  · have hdescends := hmove ha
    rcases carryOut_cases host r id resolution with
      ⟨sink, hrun⟩ | ⟨inner, _, hrun⟩ | ⟨e, r'', hrun, _⟩ | ⟨hno, _⟩
    · cases hrun.symm.trans hr
      exact ⟨_, ⟨h.outlook, hw⟩, hdescends⟩
    · cases hrun.symm.trans hr
      obtain ⟨p, hless, houtlook⟩ := h.enter inner.toList id (hs _ List.mem_cons_self)
      exact ⟨_, ⟨houtlook, hw⟩, hdescends.cons hless⟩
    · cases hrun.symm.trans hr
    · exact absurd hno ha

/-- So is whatever a token leads to that was read, and opens no `while` that is rendered. -/
theorem Faces.act {ahead : Nat} {raw : List Char} (h : r.Faces limit value own below around)
    (hw : r.state.frames.NoWhile) (hc : host.KeepsOn) (hs : r'.Shallow limit)
    (hn : ∀ token condition, (host.grammar r.counted.vars).classify r.counted.tokens raw = .ok token →
      token.directive = .whileOpen condition → r.state.frames.suppressed = false →
        host.decide token.id r.state.vars condition ≠ .ok true)
    (hsorted : (⟨limit - r.passage.level, ahead, 0⟩ ::
      (own.prospects (limit - r.passage.level) value.length ++ around)).Pairwise Prospect.Less)
    (hahead : value.length - r.passage.window.cursor < ahead)
    (hr : Rendering.act host r raw = .running r') :
    ∃ after, r'.Paced limit after ∧ Prospect.Descends after
      (⟨limit - r.passage.level, ahead, 0⟩ ::
        (own.prospects (limit - r.passage.level) value.length ++ around)) := by
  rcases act_cases host r raw with ⟨token, resolution, state, hres⟩ | ⟨e, state, hf, _⟩
  · rw [act_of_resolves hres] at hr
    have hnoWhile : state.frames.NoWhile :=
      Host.noWhile_of_interpret hres.interpret hw fun condition => hn token condition hres.classify
    by_cases ha : resolution.action = .again
    · obtain ⟨own', hframes, hlevel, hdescends⟩ :=
        hc.descends_again hres.interpret ha hw h.frames h.level_eq h.lower hsorted
      obtain ⟨hfaces, hstate, hl, -⟩ := h.followLoop hframes hlevel token.kind resolution.action
      refine hfaces.carryOut (by rw [hstate]; exact hnoWhile) token.id resolution hs hr
        (fun hne => absurd ha hne) fun _ offset ho => ?_
      rw [hl]
      rw [hstate] at ho
      exact hdescends offset ho
    · have hstep := Host.frameStep_of_interpret hres.interpret
      rw [show r.counted.frames = own ++ below from h.frames] at hstep
      obtain ⟨own', hframes, hlevel, hdescends⟩ :=
        hstep.descends h.level_eq h.lower hsorted hahead ha
      obtain ⟨hfaces, hstate, hl, hcursor⟩ :=
        h.followLoop hframes hlevel token.kind resolution.action
      refine hfaces.carryOut (by rw [hstate]; exact hnoWhile) token.id resolution hs hr
        (fun _ => ?_) fun hagain => absurd hagain ha
      unfold Passage.prospects
      rw [hl, hcursor]
      exact hdescends
  · rw [hf] at hr
    cases hr

/-- A passage is left for the one that it stands in. -/
theorem Faces.leave (h : r.Faces limit value own below around) (hw : r.state.frames.NoWhile)
    (hr : r.leave = .running r') : r'.Paced limit around := by
  rcases leave_cases r with ⟨e, hleave, _⟩ | ⟨hc, ⟨_, hleave⟩ | ⟨p, outer, ho, hleave⟩⟩
  · cases hleave.symm.trans hr
  · cases hleave.symm.trans hr
  · cases hleave.symm.trans hr
    have hnone : own = [] := by
      rw [h.frames, h.opened, List.length_append] at hc
      exact List.eq_nil_of_length_eq_zero (by omega)
    have houter := h.outer
    rw [ho] at houter
    refine ⟨?_, hw⟩
    show Outlook limit (p :: outer) r.state.frames around
    rw [h.frames, hnone]
    exact houter

/-- The next token is a `while` that is rendered: its condition holds. -/
def entersWhile (host : Host κ) (r : Rendering κ σ) : Bool :=
  match r.meet host with
  | .token raw r =>
    match (host.grammar r.counted.vars).classify r.counted.tokens raw with
    | .ok token =>
      match token.directive with
      | .whileOpen condition =>
        !r.state.frames.suppressed &&
          match host.decide token.id r.state.vars condition with
          | .ok truthy => truthy
          | .error _ => false
      | _ => false
    | .error _ => false
  | _ => false

omit [FaithfulSource σ] in
theorem ne_true_of_entersWhile {raw : List Char} {token : Token} {condition : Token.Condition}
    (h : r.entersWhile host = false) (hm : r.meet host = .token raw r')
    (hc : (host.grammar r'.counted.vars).classify r'.counted.tokens raw = .ok token)
    (hd : token.directive = .whileOpen condition) (hs : r'.state.frames.suppressed = false) :
    host.decide token.id r'.state.vars condition ≠ .ok true := by
  intro htrue
  unfold entersWhile at h
  rw [hm] at h
  dsimp only at h
  rw [hc] at h
  dsimp only at h
  rw [hd] at h
  dsimp only at h
  rw [hs, htrue] at h
  cases h

/-- **With every step less can come of a rendering** in which no `while` is rendered. -/
theorem Paced.step {prospects : List Prospect} (h : r.Paced limit prospects)
    (hsorted : prospects.Pairwise Prospect.Less) (hc : host.KeepsOn)
    (hn : r.entersWhile host = false) (hs : r'.Shallow limit) (hr : r.step host = .running r') :
    ∃ after, r'.Paced limit after ∧ after.Pairwise Prospect.Less ∧
      Prospect.Falls after prospects := by
  obtain ⟨value, own, below, around, hfaces, rfl⟩ : ∃ value own below around,
      r.Faces limit value own below around ∧
        prospects = r.passage.prospects limit value own around := by
    have houtlook := h.outlook
    generalize hframes : r.state.frames = frames at houtlook
    cases houtlook with
    | passage shows opened level_eq lower outer =>
      exact ⟨_, _, _, _, ⟨hframes, shows, opened, level_eq, lower, outer⟩, rfl⟩
  have hmeets : r.Meets host value (r.meet host) := meets_meet hfaces.shows
  rw [step_eq] at hr
  cases hm : r.meet host with
  | failure e r₁ =>
    rw [hm] at hr
    cases hr
  | ending r₁ =>
    rw [hm] at hr hmeets
    cases hmeets with
    | ending hgoes =>
      have hpaced := (hfaces.goesOnTo hgoes).leave (by rw [hgoes.state]; exact h.noWhile) hr
      unfold Passage.prospects at hsorted ⊢
      rw [← List.cons_append] at hsorted ⊢
      exact ⟨around, hpaced, (List.pairwise_append.1 hsorted).2.1,
        Prospect.falls_of_append (List.cons_ne_nil _ _)⟩
  | token raw r₁ =>
    have hcursor := cursor_lt_of_meet hm
    have htoken := fun token condition hclassify hdirective hseen =>
      @ne_true_of_entersWhile _ _ _ host r r₁ raw token condition hn hm hclassify hdirective hseen
    rw [hm] at hr hmeets
    cases hmeets with
    | token hgoes ht =>
      have hread := hfaces.goesOnTo hgoes
      have hle : r₁.passage.window.cursor ≤ value.length :=
        Nat.le_trans hread.shows.le_stop hread.shows.stop_le
      have hlevel : r₁.passage.level = r.passage.level := by rw [hgoes.passage]
      unfold Passage.prospects at hsorted ⊢
      rw [← hlevel] at hsorted ⊢
      obtain ⟨after, hpaced, hdescends⟩ := hread.act (by rw [hgoes.state]; exact h.noWhile) hc hs
        htoken hsorted (by omega) hr
      exact ⟨after, hpaced, hdescends.sorted, hdescends.falls⟩

theorem Paced.exists_ended (hc : host.KeepsOn)
    (prospects : { prospects : List Prospect // prospects.Pairwise Prospect.Less })
    {r : Rendering κ σ} (h : r.Paced host.options.maxDepth prospects.1)
    (hs : r.Shallow host.options.maxDepth)
    (hn : ∀ steps r', r.run host steps = .running r' → r'.entersWhile host = false) :
    ∃ steps, (∃ r', r.run host steps = .finished r') ∨ ∃ e r', r.run host steps = .failed e r' := by
  induction prospects using Prospect.wellFounded_falls.induction generalizing r with
  | h prospects ih =>
    cases hstep : r.step host with
    | finished r' =>
      refine ⟨1, .inl ⟨r', ?_⟩⟩
      rw [run_succ, hstep]
    | failed e r' =>
      refine ⟨1, .inr ⟨e, r', ?_⟩⟩
      rw [run_succ, hstep]
    | running r' =>
      have hshallow : r'.Shallow host.options.maxDepth := by
        have hafter := hs.step
        rw [hstep] at hafter
        exact hafter
      obtain ⟨after, hpaced, hsorted, hfalls⟩ :=
        h.step prospects.2 hc (hn 0 r rfl) hshallow hstep
      obtain ⟨steps, hend⟩ := ih ⟨after, hsorted⟩ hfalls hpaced hshallow fun steps r'' hrun =>
        hn (steps + 1) r'' (by rw [run_of_running hstep, hrun])
      refine ⟨steps + 1, ?_⟩
      rw [run_of_running hstep]
      exact hend

/-- **Values stand in each other no deeper than the options allow, and a rendering comes to an end**,
with or without an error, unless a `while` is rendered. It does so whatever values expressions have and
whatever values define and contain each other, as long as the callback starts no loop over itself. -/
theorem shallow_and_ends {text : List Char} {w : Window σ} (vars : Variables) (memory : κ)
    (pool : Pool) (sink : Sink) (hc : host.KeepsOn) (hw : w.Shows text) :
    (∀ steps, ((start w 0 { vars, memory } pool sink).run host steps).rendering.Shallow
      host.options.maxDepth) ∧
    ((∀ steps r, (start w 0 { vars, memory } pool sink).run host steps = .running r →
        r.entersWhile host = false) →
      ∃ steps, (∃ r, (start w 0 { vars, memory } pool sink).run host steps = .finished r) ∨
        ∃ e r, (start w 0 { vars, memory } pool sink).run host steps = .failed e r) := by
  have hshallow : (start w 0 { vars, memory } pool sink).Shallow host.options.maxDepth :=
    List.forall_mem_singleton.2 (Nat.zero_le _)
  have hfaces : (start w 0 { vars, memory } pool sink).Faces host.options.maxDepth text [] [] [] :=
    ⟨rfl, hw, rfl, nofun, nofun, .nil⟩
  exact ⟨hshallow.run, Paced.exists_ended hc ⟨_, List.pairwise_singleton ..⟩
    ⟨hfaces.outlook, nofun⟩ hshallow⟩

/-- A loop, a `while` that is not rendered, and a value that contains itself. -/
theorem shallow_and_ends_of_self_reference :
    let host : Host Unit := { options := { maxDepth := 2 } }
    let text := "{{each y : v => v.ys}}{{y}}{{/each}}{{while n}}{{y}}{{/while}}{{x}}".toList
    let w : Window TextSource := .fixed text
    let vars : Variables := .ofList [("x", .str "{{x}}"), ("ys", .list [.str "a", .str "b"])]
    let r := start w 0 { vars, memory := () } ⟨[], 4, 0⟩ {}
    host.KeepsOn ∧ w.Shows text ∧
      (∀ steps r', r.run host steps = .running r' → r'.entersWhile host = false) ∧
      (∀ steps, (r.run host steps).rendering.Shallow 2) ∧
      ∃ steps, (∃ r', r.run host steps = .finished r') ∨ ∃ e r', r.run host steps = .failed e r' := by
  intro host text w vars r
  have hc : host.KeepsOn := nofun
  have hw : w.Shows text := Window.shows_fixed text
  have hends : ((r.run host 11).told).isSome = true := by decide +kernel
  have hbefore : (List.range 11).all (fun steps => !(r.run host steps).rendering.entersWhile host) =
      true := by decide +kernel
  have hn : ∀ steps r', r.run host steps = .running r' → r'.entersWhile host = false := by
    intro steps r' hr
    by_cases hlt : steps < 11
    · have hstep := List.all_eq_true.1 hbefore steps (List.mem_range.2 hlt)
      rw [hr] at hstep
      rw [Bool.not_eq_true'] at hstep
      exact hstep
    · obtain ⟨out, hout⟩ := Option.isSome_iff_exists.1 hends
      have htold := run_of_le hout (Nat.le_of_not_lt hlt)
      rw [hr] at htold
      cases htold
  obtain ⟨hshallow, hhalts⟩ := shallow_and_ends vars () ⟨[], 4, 0⟩ {} hc hw
  exact ⟨hc, hw, hn, hshallow, hhalts hn⟩
end Rendering
end

end Stencil
