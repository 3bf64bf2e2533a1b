import Stencil.Proofs.Suppression
import Stencil.Proofs.Tokens

/-! Passages that stand in others.

All passages of a rendering share one stack of open blocks. Each passage has its own blocks on top of
those that were open when it began (`Rendering.Nests`), and every step keeps it that way: a token opens
blocks on top, and closes or divides only a block of the level it is met at (`Nests.step`). So while a
value is rendered the blocks around it lie where they are, untouched, and when its end is reached
they are all that is left (`blocksKept_of_enter`). -/
namespace Stencil

namespace Rendering
variable {κ σ : Type}

/-! ### Reading on -/

/-- Reading on moves the window and writes; it touches nothing else. -/
def ReadsTo (r r' : Rendering κ σ) : Prop :=
  ∃ window pool sink, r' = { r.withWindow window with pool, sink }

namespace ReadsTo
variable {r r' r'' : Rendering κ σ}

theorem trans (h : r.ReadsTo r') (h' : r'.ReadsTo r'') : r.ReadsTo r'' := by
  obtain ⟨_, _, _, rfl⟩ := h
  obtain ⟨_, _, _, rfl⟩ := h'
  exact ⟨_, _, _, rfl⟩

theorem state_eq (h : r.ReadsTo r') : r'.state = r.state := by
  obtain ⟨_, _, _, rfl⟩ := h
  rfl

theorem outer_eq (h : r.ReadsTo r') : r'.outer = r.outer := by
  obtain ⟨_, _, _, rfl⟩ := h
  rfl

theorem advance (h : r.ReadsTo r') (count : Nat) : r.ReadsTo (r'.advance count) := by
  obtain ⟨_, _, _, rfl⟩ := h
  exact ⟨_, _, _, rfl⟩

theorem writeLiteral {cs : List Char} {result : Except RenderError Unit} (h : r.ReadsTo r')
    (hw : r'.writeLiteral cs = (result, r'')) : r.ReadsTo r'' := by
  obtain ⟨_, _, _, rfl⟩ := h
  obtain ⟨_, rfl, _⟩ := writeLiteral_eq hw
  exact ⟨_, _, _, rfl⟩

theorem span [CharSource σ] {result : Except RenderError (List Char)}
    (hs : r.span = (result, r')) : r.ReadsTo r' := by
  obtain ⟨_, _, _, rfl⟩ := of_span hs
  exact ⟨_, _, _, rfl⟩

end ReadsTo

theorem readsTo_meet [CharSource σ] (host : Host κ) (r : Rendering κ σ) :
    r.ReadsTo (r.meet host).rendering :=
  meet_invariant (P := r.ReadsTo) (fun _ h => h.trans (.span rfl)) (fun _ count h => h.advance count)
    (fun _ _ h => h.writeLiteral rfl) host ⟨_, _, _, rfl⟩

/-! ### Passages and their blocks -/

/-- What is rendered goes through passages `around` with the blocks `base`, and these on top of them;
`P` is true of the blocks that each of these began with. -/
inductive Nested (P : Frames → Prop) (around : List (Passage σ)) (base : Frames) :
    List (Passage σ) → Frames → Prop
  | base : Nested P around base around base
  | passage {p : Passage σ} {outer : List (Passage σ)} {own below : Frames} (begun : P below)
      (opened : p.opened = below.length) (level_eq : ∀ frame ∈ own, frame.level = p.level)
      (lower : ∀ frame ∈ below, frame.level < p.level) (h : Nested P around base outer below) :
      Nested P around base (p :: outer) (own ++ below)

/-- The blocks of the passages around stay below all others. -/
theorem Nested.exists_append {P : Frames → Prop} {around passages : List (Passage σ)}
    {base frames : Frames} (h : Nested P around base passages frames) :
    ∃ own, frames = own ++ base := by
  induction h with
  | base => exact ⟨[], rfl⟩
  | passage _ _ _ _ _ ih =>
    obtain ⟨own', rfl⟩ := ih
    exact ⟨_, (List.append_assoc ..).symm⟩

theorem Nested.length_le {P : Frames → Prop} {around passages : List (Passage σ)}
    {base frames : Frames} (h : Nested P around base passages frames) :
    around.length ≤ passages.length := by
  induction h with
  | base => exact Nat.le_refl _
  | passage _ _ _ _ _ ih => exact Nat.le_succ_of_le ih

/-- A rendering in a passage with the blocks `own`, which began with the blocks `below`. -/
structure Nests (P : Frames → Prop) (around : List (Passage σ)) (base own below : Frames)
    (r : Rendering κ σ) : Prop where
  frames : r.state.frames = own ++ below
  begun : P below
  opened : r.passage.opened = below.length
  level_eq : ∀ frame ∈ own, frame.level = r.passage.level
  lower : ∀ frame ∈ below, frame.level < r.passage.level
  outer : Nested P around base r.outer below

/-- How far a rendering may come that nests: it is in such a passage, or back where it began. -/
def NestsAfter (P : Frames → Prop) (around : List (Passage σ)) (base : Frames) :
    Progress κ σ → Prop
  | .running r => (∃ own below, r.Nests P around base own below) ∨
      (r.passage :: r.outer = around ∧ r.state.frames = base)
  | .finished r => around = [] ∧ r.state.frames = base
  | .failed _ r => ∃ own, r.state.frames = own ++ base

namespace Nests
variable {P : Frames → Prop} {around : List (Passage σ)} {base own below : Frames}
  {r r' : Rendering κ σ}

theorem enter (value : List Char) (id : Nat) (hp : P r.state.frames)
    (hl : ∀ frame ∈ r.state.frames, frame.level ≤ r.passage.level)
    (ho : Nested P around base (r.passage :: r.outer) r.state.frames) :
    (r.enter value id).Nests P around base [] r.state.frames where
  frames := rfl
  begun := hp
  opened := rfl
  level_eq := nofun
  lower frame hm := Nat.lt_succ_of_le (hl frame hm)
  outer := ho

/-- The passages with the one that is read now. -/
theorem nested (h : r.Nests P around base own below) :
    Nested P around base (r.passage :: r.outer) r.state.frames := by
  rw [h.frames]
  exact .passage h.begun h.opened h.level_eq h.lower h.outer

theorem level_le (h : r.Nests P around base own below) :
    ∀ frame ∈ r.state.frames, frame.level ≤ r.passage.level := by
  intro frame hm
  rw [h.frames] at hm
  rcases List.mem_append.1 hm with hm | hm
  · exact Nat.le_of_eq (h.level_eq frame hm)
  · exact Nat.le_of_lt (h.lower frame hm)

theorem readsTo (h : r.Nests P around base own below) (hr : r.ReadsTo r') :
    r'.Nests P around base own below := by
  obtain ⟨_, _, _, rfl⟩ := hr
  exact ⟨h.frames, h.begun, h.opened, h.level_eq, h.lower, h.outer⟩

/-- The blocks that were opened in the passage. -/
theorem own_eq (h : r.Nests P around base own below) :
    own = r.state.frames.take (r.state.frames.length - r.passage.opened) := by
  rw [h.frames, h.opened, List.length_append, Nat.add_sub_cancel, List.take_left]

/-- A token changes only blocks of its passage. -/
theorem frameStep {token : Token} {resume : Nat} {resolution : Resolution} {frames : Frames}
    (h : r.Nests P around base own below)
    (hstep : FrameStep token r.passage.level resume r.state.frames resolution frames) :
    ∃ own', frames = own' ++ below ∧ ∀ frame ∈ own', frame.level = r.passage.level := by
  have hf := h.frames.symm
  have hpush : ∀ frame : Frame, frame.level = r.passage.level →
      ∃ own', frame :: r.state.frames = own' ++ below ∧
        ∀ frame ∈ own', frame.level = r.passage.level := by
    intro frame hl
    exact ⟨frame :: own, by rw [h.frames]; rfl, List.forall_mem_cons.2 ⟨hl, h.level_eq⟩⟩
  have hlevel := h.level_eq
  generalize r.state.frames = frames₀ at hf hstep hpush
  cases hstep with
  | written hw => exact ⟨own, hf.symm, hlevel⟩
  | defined hk => exact ⟨own, hf.symm, hlevel⟩
  | skipped hs hopen => exact hpush _ rfl
  | ifOpened truthy hs hk => exact hpush _ rfl
  | whileOpened truthy hs hk => exact hpush _ rfl
  | eachEmpty hs hk => exact hpush _ rfl
  | eachOpened items hs hk => exact hpush _ rfl
  | elseMarked hk ht hl => exact hpush _ rfl
  | ifClosed hk ht hl =>
    obtain ⟨more, rfl, rfl⟩ := Frames.cons_of_append hf hl h.lower
    exact ⟨more, rfl, (List.forall_mem_cons.1 hlevel).2⟩
  | elseClosed hk hm hml ht hl =>
    obtain ⟨more, rfl, hrest⟩ := Frames.cons_of_append hf hml h.lower
    obtain ⟨more, rfl, rfl⟩ := Frames.cons_of_append hrest.symm hl h.lower
    exact ⟨more, rfl, fun frame hm =>
      hlevel frame (List.mem_cons_of_mem _ (List.mem_cons_of_mem _ hm))⟩
  | loopClosed hk hl =>
    obtain ⟨more, rfl, rfl⟩ := Frames.cons_of_append hf hl h.lower
    exact ⟨more, rfl, (List.forall_mem_cons.1 hlevel).2⟩
  | loopAgain items hk hl ht hi =>
    obtain ⟨more, rfl, rfl⟩ := Frames.cons_of_append hf hl h.lower
    exact ⟨_ :: more, rfl, List.forall_mem_cons.2 ⟨hl, (List.forall_mem_cons.1 hlevel).2⟩⟩

/-- A token that fails takes away at most a block of its passage. -/
theorem interpret {host : Host κ} {token : Token} {resume : Nat} (h : r.Nests P around base own below)
    {result : Except RenderError Resolution} {state state' : RenderState κ}
    (hs : state.frames = r.state.frames)
    (hi : host.interpret token r.passage.level resume state = (result, state')) :
    ∃ own', state'.frames = own' ++ below ∧ ∀ frame ∈ own', frame.level = r.passage.level := by
  cases result with
  | ok resolution => exact h.frameStep (hs ▸ Host.frameStep_of_interpret hi)
  | error e =>
    rcases Host.of_interpret_error hi with rfl | ⟨mark, rest, hf, hm, hl, _, rfl⟩
    · exact ⟨own, hs.trans h.frames, h.level_eq⟩
    · rw [hs, h.frames] at hf
      obtain ⟨more, rfl, rfl⟩ := Frames.cons_of_append hf hl h.lower
      exact ⟨more, rfl, (List.forall_mem_cons.1 h.level_eq).2⟩

/-- Leaving a passage leaves the blocks it began with. -/
theorem leave (h : r.Nests P around base own below) : NestsAfter P around base r.leave := by
  rcases leave_cases r with ⟨e, hr, _⟩ | ⟨hc, hcase⟩
  · rw [hr]
    exact h.nested.exists_append
  · have hnone : own = [] := by
      rw [h.frames, h.opened, List.length_append] at hc
      exact List.eq_nil_of_length_eq_zero (by omega)
    have hframes : r.state.frames = below := by rw [h.frames, hnone, List.nil_append]
    have houter := h.outer
    rcases hcase with ⟨ho, hr⟩ | ⟨p, outer, ho, hr⟩
    · rw [hr]
      rw [ho] at houter
      cases houter
      exact ⟨rfl, hframes⟩
    · rw [hr]
      rw [ho] at houter
      cases houter with
      | base => exact .inr ⟨rfl, hframes⟩
      | passage begun opened level_eq lower houter =>
        exact .inl ⟨_, _, hframes, begun, opened, level_eq, lower, houter⟩

end Nests

/-! ### Steps -/

/-- Going back leaves the blocks alone. -/
theorem replay_cases (r : Rendering κ σ) (id : Nat) :
    (∃ window, r.replay id = .running (r.withWindow window)) ∨ ∃ e, r.replay id = .failed e r := by
  unfold replay
  split
  · exact .inr ⟨_, rfl⟩
  · split
    · exact .inr ⟨_, rfl⟩
    · exact .inl ⟨_, rfl⟩

namespace Nests
variable {P : Frames → Prop} {around : List (Passage σ)} {base own below : Frames}
  {r r' : Rendering κ σ}

/-- A passage only begins where output is not withheld, so `P` has to be true there only. -/
theorem act (h : r.Nests P around base own below) (hp : ∀ frames, frames.suppressed = false → P frames)
    (host : Host κ) (raw : List Char) : NestsAfter P around base (act host r raw) := by
  cases hc : (host.grammar r.counted.vars).classify r.counted.tokens raw with
  | error e =>
    rw [act_of_classify_error hc]
    exact h.nested.exists_append
  | ok token =>
    cases hi : host.interpret token r.passage.level r.passage.window.cursor r.counted with
    | mk result state =>
      obtain ⟨own', hframes, hlevel⟩ := h.interpret (by rfl) hi
      have hnests : ∀ window pool, ({ r.withWindow window with pool, state } :
          Rendering κ σ).Nests P around base own' below :=
        fun _ _ => ⟨hframes, h.begun, h.opened, hlevel, h.lower, h.outer⟩
      cases result with
      | error e =>
        rw [act_of_interpret_error hc hi]
        exact (hnests r.passage.window r.pool).nested.exists_append
      | ok resolution =>
        rw [act_of_resolves ⟨hc, hi⟩, followLoop_eq]
        have hr := hnests (follow r.passage.window token.kind resolution.action r.pool).1
          (follow r.passage.window token.kind resolution.action r.pool).2
        rcases carryOut_cases host _ token.id resolution with
          ⟨sink, hrun⟩ | ⟨value, rfl, hrun⟩ | ⟨e, r', hrun, _, hstate⟩ | ⟨ha, hrun⟩
        · rw [hrun]
          exact .inl ⟨own', below, hr.frames, hr.begun, hr.opened, hr.level_eq, hr.lower, hr.outer⟩
        · rw [hrun]
          obtain ⟨hsame, hseen⟩ := Host.of_replace hi rfl
          refine .inl ⟨[], _, .enter value.toList token.id (hp _ ?_) hr.level_le hr.nested⟩
          show state.frames.suppressed = false
          rw [hsame]
          exact hseen
        · rw [hrun]
          show ∃ own, r'.state.frames = own ++ base
          rw [hstate]
          exact hr.nested.exists_append
        · rw [hrun]
          rcases replay_cases _ token.id with ⟨window, hre⟩ | ⟨e, hre⟩
          · rw [hre]
            exact .inl ⟨own', below, hr.frames, hr.begun, hr.opened, hr.level_eq, hr.lower, hr.outer⟩
          · rw [hre]
            exact hr.nested.exists_append

/-- Every step leaves the blocks of the passages around alone. -/
theorem step [CharSource σ] (h : r.Nests P around base own below)
    (hp : ∀ frames, frames.suppressed = false → P frames) (host : Host κ) :
    NestsAfter P around base (r.step host) := by
  have hreads := readsTo_meet host r
  rw [step_eq]
  cases hm : r.meet host with
  | token raw r' =>
    rw [hm] at hreads
    exact (h.readsTo hreads).act hp host raw
  | ending r' =>
    rw [hm] at hreads
    exact (h.readsTo hreads).leave
  | failure e r' =>
    rw [hm] at hreads
    exact (h.readsTo hreads).nested.exists_append

/-- A token that ends no block of its own passage is out of place. -/
theorem step_of_stray [CharSource σ] {host : Host κ} {raw : List Char} {token : Token}
    {opener : Token.Kind} (h : r.Nests P around base own below) (hm : r.meet host = .token raw r')
    (hc : (host.grammar r.state.vars).classify (r.state.tokens + 1) raw = .ok token)
    (ho : token.kind.opener? = some opener)
    (hown : ∀ top ∈ own.head?, token.kind.ends top.kind = false) :
    r.step host = .failed (.token token.id (.unmatched token.kind opener))
      { r' with state := r'.counted } := by
  have hreads := readsTo_meet host r
  rw [hm] at hreads
  obtain ⟨window, pool, sink, rfl⟩ : r.ReadsTo r' := hreads
  rw [step_eq, hm]
  refine act_of_interpret_error hc (Host.interpret_of_stray ho fun top ht hl => ?_)
  have ht : top ∈ (own ++ below).head? := h.frames ▸ ht
  cases own with
  | nil =>
    cases below with
    | nil => cases ht
    | cons first rest =>
      cases ht
      exact absurd hl (Nat.ne_of_lt (h.lower top List.mem_cons_self))
  | cons first rest => exact hown top ht

end Nests

/-! ### Values -/

/-- Go on for at most so many steps, and no further than to the end of the passage that stands in more
than `depth` others. -/
def runNested [CharSource σ] (host : Host κ) (depth : Nat) :
    (steps : Nat) → Rendering κ σ → Progress κ σ
  | 0, r => .running r
  | steps + 1, r =>
    match r.step host with
    | .running r => if depth < r.outer.length then runNested host depth steps r else .finished r
    | progress => progress

theorem runNested_succ [CharSource σ] (host : Host κ) (depth steps : Nat) (r : Rendering κ σ) :
    r.runNested host depth (steps + 1) =
      match r.step host with
      | .running r => if depth < r.outer.length then r.runNested host depth steps else .finished r
      | progress => progress := rfl

/-- The steps of a nested passage are steps of the rendering, which goes on behind its end. -/
theorem run_of_runNested [CharSource σ] (host : Host κ) (depth steps : Nat) (r : Rendering κ σ) :
    r.run host steps = r.runNested host depth steps ∨
      ∃ taken r', taken ≤ steps ∧ r.runNested host depth steps = .finished r' ∧
        r.run host taken = .running r' := by
  induction steps generalizing r with
  | zero => exact .inl rfl
  | succ steps ih =>
    rw [run_succ, runNested_succ]
    cases hr : r.step host with
    | finished r' => exact .inl rfl
    | failed e r' => exact .inl rfl
    | running r' =>
      dsimp only
      by_cases hd : depth < r'.outer.length
      · rw [if_pos hd]
        rcases ih r' with hsame | ⟨taken, r'', hle, hend, hrun⟩
        · exact .inl hsame
        · exact .inr ⟨taken + 1, r'', Nat.succ_le_succ hle, hend, by rw [run_of_running hr, hrun]⟩
      · rw [if_neg hd]
        exact .inr ⟨1, r', Nat.succ_le_succ (Nat.zero_le _), rfl, by rw [run_of_running hr]; rfl⟩

/-- The blocks that were opened in the passage that is read now. -/
def ownBlocks (r : Rendering κ σ) : Frames :=
  r.state.frames.take (r.state.frames.length - r.passage.opened)

/-- A rendering that leaves the blocks `base` where they are. -/
structure KeepsBlocks [CharSource σ] (host : Host κ) (base : Frames) (r : Rendering κ σ) : Prop where
  below : ∃ own, r.state.frames = own ++ base
  /-- A token that closes or divides a block, but none that was opened in the same passage, is an
  error. -/
  stray : ∀ raw r' token opener, r.meet host = .token raw r' →
    (host.grammar r.state.vars).classify (r.state.tokens + 1) raw = .ok token →
    token.kind.opener? = some opener →
    (∀ top ∈ r.ownBlocks.head?, token.kind.ends top.kind = false) →
    r.step host = .failed (.token token.id (.unmatched token.kind opener))
      { r' with state := r'.counted }

theorem Nests.keepsBlocks [CharSource σ] {P : Frames → Prop} {around : List (Passage σ)}
    {base own below : Frames} {r : Rendering κ σ} (h : r.Nests P around base own below)
    (host : Host κ) : r.KeepsBlocks host base where
  below := h.nested.exists_append
  stray _ _ _ _ hm hc ho hown := h.step_of_stray hm hc ho (by rw [h.own_eq]; exact hown)

/-- However far the passage has come that began in `r`, the blocks of `r` are where they were; and
when it has come to its end nothing else is on the stack. -/
def BlocksKept [CharSource σ] (host : Host κ) (r : Rendering κ σ) : Progress κ σ → Prop
  | .running r' => r'.KeepsBlocks host r.state.frames
  | .finished r' => r'.state.frames = r.state.frames ∧ r'.passage = r.passage ∧ r'.outer = r.outer
  | .failed _ r' => ∃ own, r'.state.frames = own ++ r.state.frames

theorem Nests.blocksKept [CharSource σ] {own below : Frames} {r r' : Rendering κ σ} {host : Host κ}
    (h : r'.Nests (fun _ => True) (r.passage :: r.outer) r.state.frames own below) (steps : Nat) :
    BlocksKept host r (r'.runNested host r.outer.length steps) := by
  induction steps generalizing r' own below with
  | zero => exact h.keepsBlocks host
  | succ steps ih =>
    have hafter := h.step (fun _ _ => trivial) host
    rw [runNested_succ]
    cases hs : r'.step host with
    | running r'' =>
      rw [hs] at hafter
      dsimp only
      rcases hafter with ⟨own', below', hnests⟩ | ⟨hleft, hframes⟩
      · rw [if_pos (show r.outer.length < r''.outer.length from hnests.outer.length_le)]
        exact ih hnests
      · obtain ⟨hpassage, houter⟩ := List.cons.inj hleft
        rw [houter, if_neg (Nat.lt_irrefl _)]
        exact ⟨hframes, hpassage, houter⟩
    | finished r'' =>
      rw [hs] at hafter
      cases hafter.1
    | failed e r'' =>
      rw [hs] at hafter
      exact hafter

/-- **Values cannot touch the blocks around them**: while the value of a token is rendered, with
whatever tokens, values and callbacks there are in it, the blocks that were open stay at the bottom of
the stack as they are; a token in it that ends none of its own blocks is an error; and when it has
come to its end just they are open. After any number of steps the rendering is still within the value, or
it came to the end of the value on the way. -/
theorem blocksKept_of_enter [CharSource σ] (host : Host κ) {r : Rendering κ σ} (value : List Char)
    (id : Nat) (hl : ∀ frame ∈ r.state.frames, frame.level ≤ r.passage.level) (steps : Nat) :
    BlocksKept host r ((r.enter value id).runNested host r.outer.length steps) ∧
      (BlocksKept host r ((r.enter value id).run host steps) ∨
        ∃ taken ≤ steps, ∃ r', (r.enter value id).run host taken = .running r' ∧
          BlocksKept host r (.finished r')) := by
  have hkept : BlocksKept host r ((r.enter value id).runNested host r.outer.length steps) :=
    (Nests.enter value id trivial hl .base).blocksKept steps
  refine ⟨hkept, ?_⟩
  rcases run_of_runNested host r.outer.length steps (r.enter value id) with
    hsame | ⟨taken, r', hle, hend, hrun⟩
  · exact .inl (hsame ▸ hkept)
  · rw [hend] at hkept
    exact .inr ⟨taken, hle, r', hrun, hkept⟩

/-- A value in a loop that tries to close it. -/
theorem blocksKept_of_closing_value :
    let host : Host Unit := {}
    let block : Frame :=
      { token := ⟨1, .eachOpen "x" "v => v.xs", 18⟩, truthy := true, live := true, level := 0,
        resume := some 22, items := some ["b"] }
    let state : RenderState Unit :=
      { frames := [block], tokens := 2, vars := .ofList [("x", .str "{{/each}}")], memory := () }
    let window : Window TextSource := .fixed "{{each x : v => v.xs}}{{x}}{{/each}}".toList
    let r : Rendering Unit TextSource :=
      { passage := { level := 0, window }, state, pool := ⟨[], 4, 0⟩ }
    (∀ frame ∈ r.state.frames, frame.level ≤ r.passage.level) ∧
      BlocksKept host r ((r.enter "{{/each}}".toList 2).runNested host 0 3) ∧
      (BlocksKept host r ((r.enter "{{/each}}".toList 2).run host 3) ∨
        ∃ taken ≤ 3, ∃ r', (r.enter "{{/each}}".toList 2).run host taken = .running r' ∧
          BlocksKept host r (.finished r')) := by
  intro host block state window r
  have hl : ∀ frame ∈ r.state.frames, frame.level ≤ r.passage.level := by
    intro frame hm
    exact List.mem_singleton.1 hm ▸ Nat.le_refl 0
  exact ⟨hl, blocksKept_of_enter host _ 2 hl 3⟩

end Rendering

end Stencil
