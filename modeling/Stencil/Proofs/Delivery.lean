import Mathlib.Data.List.Forall2
import Stencil.Proofs.Replay
import Stencil.Proofs.Sight
import Stencil.Proofs.Utf8

/-! What a rendering does depends on its text only.

Two renderings are alike if they have come equally far in the same text, whatever their windows have
of it at hand (`Rendering.Alike`). Then they come upon the same, do the same about it and are alike
after it, or end in the same way (`Alike.step`), as long as the windows cut no delimiter off from a
backslash that counts (`Subject.Sound`). In a template none does. So nothing that is to be seen of a
rendering depends on how the bytes of its template are delivered, on the size of the window or on the
pool. -/
namespace Stencil

/-! ### Windows that follow the loops -/

namespace Rendering
variable {σ : Type} {text : List Char} {ending : Option String}

theorem follow_growth (w : Window σ) (kind : Token.Kind) (action : Action) (pool : Pool) :
    (follow w kind action pool).1.growth =
      if kind.isLoop then w.growth + 1
      else if kind.isLoopClose ∧ action ≠ .again then w.growth - 1
      else w.growth := by
  unfold follow
  split
  · rfl
  · split
    · unfold Window.closeLoop
      split
      · next h => rw [h]
      · next h =>
        rw [h]
        rfl
      · next h =>
        rw [h]
        rfl
    · rfl

variable [CharSource σ] [SteadySource σ]

theorem follow_tells {w : Window σ} (h : w.Tells text ending) (kind : Token.Kind) (action : Action)
    (pool : Pool) : (follow w kind action pool).1.Tells text ending := by
  refine h.of_supply_eq (follow_supply ..) ?_
  unfold follow
  split
  · exact h.toShows.openLoop
  · split
    · exact h.toShows.closeLoop pool
    · exact h.toShows

end Rendering

/-! ### Renderings that are equally far -/

/-- What two renderings are of: the level and the text that they begin with, how it ends, and the kinds of
windows that they have on it. -/
structure Subject (σ τ : Type) where
  level : Nat
  text : List Char
  ending : Option String
  kind : Window σ → Prop
  kind' : Window τ → Prop

section
variable {κ σ τ : Type} [CharSource σ] [SteadySource σ] [CharSource τ] [SteadySource τ]

namespace Subject

/-- No window of these kinds cuts a delimiter off from a backslash that counts. -/
structure Sound (left : List Char) (t : Subject σ τ) : Prop where
  cuts : Window.Cuts left t.level t.text t.kind
  cuts' : Window.Cuts left t.level t.text t.kind'

/-- Two windows at a level are on the same text, or on the same value, all of which is there. -/
def Beside (t : Subject σ τ) (level : Nat) (w : Window σ) (v : Window τ) : Prop :=
  (level = t.level ∧ w.Tells t.text t.ending ∧ v.Tells t.text t.ending ∧ t.kind w ∧ t.kind' v) ∨
    ∃ value, w.Whole value ∧ v.Whole value

/-- In templates backslashes do not count, so the windows may be of any kind. -/
def template (text : List Char) (ending : Option String) : Subject σ τ :=
  ⟨0, text, ending, fun _ => True, fun _ => True⟩

theorem sound_template (left text : List Char) (ending : Option String) :
    (template text ending : Subject σ τ).Sound left :=
  ⟨Window.cuts_template left text, Window.cuts_template left text⟩

end Subject

variable {t : Subject σ τ}

/-- Two passages have come equally far. -/
structure Passage.Alike (t : Subject σ τ) (p : Passage σ) (q : Passage τ) : Prop where
  level : p.level = q.level
  opened : p.opened = q.opened
  within : p.within = q.within
  cursor : p.window.cursor = q.window.cursor
  growth : p.window.growth = q.window.growth
  window : t.Beside p.level p.window q.window

namespace Rendering

/-- Two renderings have come equally far. -/
structure Alike (t : Subject σ τ) (r : Rendering κ σ) (s : Rendering κ τ) : Prop where
  passage : r.passage.Alike t s.passage
  outer : List.Forall₂ (Passage.Alike t) r.outer s.outer
  state : r.state = s.state
  sink : r.sink = s.sink
  room : r.sink.room = none

/-- Two renderings have come equally far, or have ended in the same way. -/
inductive AlikeProgress (t : Subject σ τ) : Progress κ σ → Progress κ τ → Prop where
  | running {r : Rendering κ σ} {s : Rendering κ τ} (h : r.Alike t s) :
      AlikeProgress t (.running r) (.running s)
  | finished {r : Rendering κ σ} {s : Rendering κ τ} (hstate : r.state = s.state)
      (hsink : r.sink = s.sink) : AlikeProgress t (.finished r) (.finished s)
  | failed {e : RenderError} {r : Rendering κ σ} {s : Rendering κ τ} (hstate : r.state = s.state)
      (hsink : r.sink = s.sink) : AlikeProgress t (.failed e r) (.failed e s)

/-! ### What they come upon -/

/-- Two encounters are the same. -/
inductive AlikeEncounter (t : Subject σ τ) : Encounter κ σ → Encounter κ τ → Prop where
  | token {raw : List Char} {r : Rendering κ σ} {s : Rendering κ τ} (h : r.Alike t s) :
      AlikeEncounter t (.token raw r) (.token raw s)
  | ending {r : Rendering κ σ} {s : Rendering κ τ} (h : r.Alike t s) :
      AlikeEncounter t (.ending r) (.ending s)
  | failure {e : RenderError} {r : Rendering κ σ} {s : Rendering κ τ} (hstate : r.state = s.state)
      (hsink : r.sink = s.sink) : AlikeEncounter t (.failure e r) (.failure e s)

/-- Renderings that have read on to the same place are alike again. -/
theorem Alike.goesOnTo {r r' : Rendering κ σ} {s s' : Rendering κ τ} {value : List Char}
    (h : r.Alike t s) (hr : r.GoesOnTo value r') (hs : s.GoesOnTo value s')
    (hc : r'.passage.window.cursor = s'.passage.window.cursor) (hk : r'.sink = s'.sink)
    (hroom : r'.sink.room = none)
    (hwindow : t.Beside r.passage.level r'.passage.window s'.passage.window) :
    r'.Alike t s' := by
  refine ⟨?_, ?_, ?_, hk, hroom⟩
  · rw [hr.passage, hs.passage]
    refine ⟨h.passage.level, h.passage.opened, h.passage.within, hc, ?_, hwindow⟩
    rw [hr.window.growth, hs.window.growth, h.passage.growth]
  · rw [hr.outer, hs.outer]
    exact h.outer
  · rw [hr.state, hs.state, h.state]

/-- Renderings that are alike come upon the same. -/
theorem Alike.meet {r : Rendering κ σ} {s : Rendering κ τ} (h : r.Alike t s) {host : Host κ}
    (ht : t.Sound host.left) : AlikeEncounter t (r.meet host) (s.meet host) := by
  have hroom : s.sink.room = none := h.sink ▸ h.room
  -- What each of them comes upon is what lies ahead in the text of the passage.
  have hsees : ∀ {value : List Char} {behind : Option String} {P : Window σ → Prop}
      {Q : Window τ → Prop},
      r.Sees P value behind (host.look s.passage.level s.passage.within value behind
        s.passage.window.cursor) (r.meet host) →
      s.Sees Q value behind (host.look s.passage.level s.passage.within value behind
        s.passage.window.cursor) (s.meet host) →
      (∀ {r' : Rendering κ σ} {s' : Rendering κ τ}, r'.passage.window.Tells value behind →
        s'.passage.window.Tells value behind → P r'.passage.window → Q s'.passage.window →
        t.Beside r.passage.level r'.passage.window s'.passage.window) →
      AlikeEncounter t (r.meet host) (s.meet host) := by
    intro value behind P Q hr hs hwindow
    have hput : ∀ literal, r.sink.put r.state.frames.suppressed literal =
        s.sink.put s.state.frames.suppressed literal := by
      intro literal
      rw [h.sink, h.state]
    generalize host.look s.passage.level s.passage.within value behind s.passage.window.cursor =
      sight at hr hs
    generalize r.meet host = met at hr ⊢
    generalize s.meet host = met' at hs ⊢
    cases hr with
    | token hres hgo ht hc hk hw =>
      cases hs with
      | token hres' hgo' ht' hc' hk' hw' =>
        rw [hres] at hres'
        cases hres'
        refine .token (h.goesOnTo hgo hgo' (hc.trans hc'.symm) ?_ ?_ (hwindow ht ht' hw hw'))
        · rw [hk, hk', hput]
        · rw [hk]
          exact Sink.room_put h.room ..
      | ending hres' => rw [hres] at hres'; cases hres'
      | failure hres' => rw [hres] at hres'; cases hres'
    | ending hres hgo ht hc hk hw =>
      cases hs with
      | token hres' => rw [hres] at hres'; cases hres'
      | ending hres' hgo' ht' hc' hk' hw' =>
        refine .ending (h.goesOnTo hgo hgo' (hc.trans hc'.symm) ?_ ?_ (hwindow ht ht' hw hw'))
        · rw [hk, hk', hput]
        · rw [hk]
          exact Sink.room_put h.room ..
      | failure hres' => rw [hres] at hres'; cases hres'
    | failure hres hgo hk =>
      cases hs with
      | token hres' => rw [hres] at hres'; cases hres'
      | ending hres' => rw [hres] at hres'; cases hres'
      | failure hres' hgo' hk' =>
        rw [hres] at hres'
        cases hres'
        refine .failure ?_ ?_
        · rw [hgo.state, hgo'.state, h.state]
        · rw [hk, hk', hput]
  have hlook : ∀ {value : List Char} {behind : Option String},
      host.look r.passage.level r.passage.within value behind r.passage.window.cursor =
        host.look s.passage.level s.passage.within value behind s.passage.window.cursor := by
    intro value behind
    rw [h.passage.level, h.passage.within, h.passage.cursor]
  rcases h.passage.window with ⟨hl, hr, hs, hkind, hkind'⟩ | ⟨value, hr, hs⟩
  · have hsr := sees_meet host (hl ▸ ht.cuts) hkind hr h.room
    rw [hlook] at hsr
    have hl' : s.passage.level = t.level := h.passage.level ▸ hl
    refine hsees hsr (sees_meet host (hl' ▸ ht.cuts') hkind' hs hroom) ?_
    intro r' s' htr hts hw hw'
    exact .inl ⟨hl, htr, hts, hw, hw'⟩
  · have hsr := sees_meet host (Window.cuts_whole ..) hr hr.tells h.room
    rw [hlook] at hsr
    refine hsees hsr (sees_meet host (Window.cuts_whole ..) hs hs.tells hroom) ?_
    intro r' s' _ _ hw hw'
    exact .inr ⟨value, hw, hw'⟩

/-! ### What they do about it -/

/-- Renderings that are alike follow the same loops. -/
theorem Alike.followLoop {r : Rendering κ σ} {s : Rendering κ τ} (h : r.Alike t s) {left : List Char}
    (ht : t.Sound left) (kind : Token.Kind) (action : Action) :
    (r.followLoop kind action).Alike t (s.followLoop kind action) := by
  rw [followLoop_eq, followLoop_eq]
  refine ⟨⟨h.passage.level, h.passage.opened, h.passage.within, ?_, ?_, ?_⟩, h.outer, h.state,
    h.sink, h.room⟩
  · exact (follow_cursor ..).trans (h.passage.cursor.trans (follow_cursor ..).symm)
  · show (follow r.passage.window kind action r.pool).1.growth =
      (follow s.passage.window kind action s.pool).1.growth
    rw [follow_growth, follow_growth, h.passage.growth]
  · rcases h.passage.window with ⟨hl, hr, hs, hkind, hkind'⟩ | ⟨value, hr, hs⟩
    · exact .inl ⟨hl, follow_tells hr .., follow_tells hs .., ht.cuts.follow kind action _ hkind,
        ht.cuts'.follow kind action _ hkind'⟩
    · exact .inr ⟨value, follow_whole hr .., follow_whole hs ..⟩

/-- The loop that is innermost, if the rendering is at that level, can go back. -/
def CanReplay (level : Nat) (r : Rendering κ σ) : Prop :=
  r.passage.level = level → ∀ offset, r.state.frames.head?.bind (·.resume) = some offset →
    r.passage.window.residentStart ≤ offset ∧ offset ≤ r.passage.window.residentStop

omit [CharSource σ] [SteadySource σ] in
theorem seek_of_range {w : Window σ} {offset : Nat}
    (h : w.residentStart ≤ offset ∧ offset ≤ w.residentStop) :
    w.seek offset = .ok { w with cursor := offset } := by
  unfold Window.seek
  rw [if_pos h]

omit [CharSource σ] [SteadySource σ] in
theorem range_of_seek {w w' : Window σ} {offset : Nat} (h : w.seek offset = .ok w') :
    w.residentStart ≤ offset ∧ offset ≤ w.residentStop := by
  unfold Window.seek at h
  split at h
  · next hrange => exact hrange
  · cases h

/-- Renderings that are alike go back to the same place, or to none. -/
theorem Alike.replay {r : Rendering κ σ} {s : Rendering κ τ} (h : r.Alike t s) {left : List Char}
    (ht : t.Sound left) (hr : r.CanReplay t.level) (hs : s.CanReplay t.level) (id : Nat) :
    AlikeProgress t (r.replay id) (s.replay id) := by
  unfold Rendering.replay
  rw [← h.state]
  cases ho : r.state.frames.head?.bind (·.resume) with
  | none => exact .failed h.state h.sink
  | some offset =>
    dsimp only
    have halike : ∀ {w : Window σ} {v : Window τ}, w.cursor = v.cursor → w.growth = v.growth →
        t.Beside r.passage.level w v → (r.withWindow w).Alike t (s.withWindow v) := by
      intro w v hc hg hw
      exact ⟨⟨h.passage.level, h.passage.opened, h.passage.within, hc, hg, hw⟩, h.outer, h.state,
        h.sink, h.room⟩
    rcases h.passage.window with ⟨hl, htr, hts, hkind, hkind'⟩ | ⟨value, hwr, hws⟩
    · have hrange := hr hl offset ho
      have hrange' := hs (h.passage.level ▸ hl) offset (h.state ▸ ho)
      rw [seek_of_range hrange, seek_of_range hrange']
      refine .running (halike rfl h.passage.growth (.inl ⟨hl, ?_, ?_, ?_, ?_⟩))
      · exact htr.of_supply_eq rfl (htr.toShows.withCursor hrange.1 hrange.2)
      · exact hts.of_supply_eq rfl (hts.toShows.withCursor hrange'.1 hrange'.2)
      · exact ht.cuts.withCursor hkind hrange.2
      · exact ht.cuts'.withCursor hkind' hrange'.2
    · have hstart : s.passage.window.residentStart = r.passage.window.residentStart := by
        rw [Window.residentStart, Window.residentStart, hwr.segments, hws.segments]
      have hstop : s.passage.window.residentStop = r.passage.window.residentStop := by
        rw [Window.residentStop, Window.residentStop, hwr.segments, hws.segments]
        rfl
      unfold Window.seek
      rw [hstart, hstop]
      by_cases hrange : r.passage.window.residentStart ≤ offset ∧
          offset ≤ r.passage.window.residentStop
      · rw [if_pos hrange, if_pos hrange]
        have hle : offset ≤ value.length := by
          have := hrange.2
          rw [Window.residentStop, hwr.segments] at this
          exact Nat.le_trans this (Nat.le_of_eq (Nat.zero_add _))
        exact .running (halike rfl h.passage.growth
          (.inr ⟨value, ⟨hwr.supply, hwr.segments, hle⟩, ⟨hws.supply, hws.segments, hle⟩⟩))
      · rw [if_neg hrange, if_neg hrange]
        exact .failed h.state h.sink

/-- Renderings that are alike write the same. -/
theorem Alike.emit {r : Rendering κ σ} {s : Rendering κ τ} (h : r.Alike t s)
    (value : List Char) : AlikeProgress t (r.emit value) (s.emit value) := by
  have hroom : s.sink.room = none := h.sink ▸ h.room
  unfold Rendering.emit Rendering.write
  rw [Sink.write_of_room_eq_none h.room, Sink.write_of_room_eq_none hroom, ← h.sink]
  exact .running ⟨h.passage, h.outer, h.state, rfl, h.room⟩

/-- Renderings that are alike carry out a resolution in the same way. -/
theorem Alike.carryOut {r : Rendering κ σ} {s : Rendering κ τ} (h : r.Alike t s) {left : List Char}
    (ht : t.Sound left) {resolution : Resolution}
    (hr : resolution.action = .again → r.CanReplay t.level)
    (hs : resolution.action = .again → s.CanReplay t.level) (host : Host κ) (id : Nat) :
    AlikeProgress t (carryOut host r id resolution) (carryOut host s id resolution) := by
  unfold Rendering.carryOut
  cases ha : resolution.action with
  | again => exact h.replay ht (hr ha) (hs ha) id
  | ignore => exact .running h
  | mark => exact h.emit _
  | replace =>
    cases resolution.value with
    | none => exact .running h
    | some value =>
      dsimp only
      unfold Rendering.expand
      rw [← h.passage.level]
      by_cases hc : Text.contains host.left value.toList = true
      · rw [if_pos hc, if_pos hc]
        by_cases hd : host.options.maxDepth < r.passage.level + 1
        · rw [if_pos hd, if_pos hd]
          exact .failed h.state h.sink
        · rw [if_neg hd, if_neg hd]
          refine .running ⟨?_, .cons h.passage h.outer, h.state, h.sink, h.room⟩
          refine ⟨congrArg (· + 1) h.passage.level, ?_, rfl, rfl, rfl,
            .inr ⟨_, Window.whole_fixed _, Window.whole_fixed _⟩⟩
          show r.state.frames.length = s.state.frames.length
          rw [h.state]
      · rw [if_neg hc, if_neg hc]
        exact h.emit _

/-- Renderings that are alike act in the same way on a token. -/
theorem Alike.act {r : Rendering κ σ} {s : Rendering κ τ} (h : r.Alike t s) {left : List Char}
    (ht : t.Sound left) (host : Host κ) (raw : List Char)
    (hr : ∀ token resolution state, r.Resolves host raw token resolution state →
      resolution.action = .again →
      (({ r with state } : Rendering κ σ).followLoop token.kind resolution.action).CanReplay t.level)
    (hs : ∀ token resolution state, s.Resolves host raw token resolution state →
      resolution.action = .again →
      (({ s with state } : Rendering κ τ).followLoop token.kind resolution.action).CanReplay t.level) :
    AlikeProgress t (act host r raw) (act host s raw) := by
  have hcounted : s.counted = r.counted := by
    unfold counted
    rw [h.state, h.passage.level, h.passage.cursor]
  have halike : ∀ state, ({ r with state } : Rendering κ σ).Alike t { s with state } :=
    fun state => ⟨h.passage, h.outer, rfl, h.sink, h.room⟩
  have hinterpret : ∀ token, host.interpret token s.passage.level s.passage.window.cursor s.counted =
      host.interpret token r.passage.level r.passage.window.cursor r.counted := by
    intro token
    rw [hcounted, h.passage.level, h.passage.cursor]
  have hclassify : (host.grammar s.counted.vars).classify s.counted.tokens raw =
      (host.grammar r.counted.vars).classify r.counted.tokens raw := by
    rw [hcounted]
  cases hc : (host.grammar r.counted.vars).classify r.counted.tokens raw with
  | error e =>
    rw [act_of_classify_error hc, act_of_classify_error (hclassify.trans hc)]
    exact .failed hcounted.symm h.sink
  | ok token =>
    cases hi : host.interpret token r.passage.level r.passage.window.cursor r.counted with
    | mk result state =>
      cases result with
      | error e =>
        rw [act_of_interpret_error hc hi,
          act_of_interpret_error (hclassify.trans hc) ((hinterpret token).trans hi)]
        refine .failed ?_ h.sink
        rfl
      | ok resolution =>
        have hres : r.Resolves host raw token resolution state := ⟨hc, hi⟩
        have hres' : s.Resolves host raw token resolution state :=
          ⟨hclassify.trans hc, (hinterpret token).trans hi⟩
        rw [act_of_resolves hres, act_of_resolves hres']
        exact ((halike state).followLoop ht token.kind resolution.action).carryOut ht
          (hr _ _ _ hres) (hs _ _ _ hres') host token.id

/-- Renderings that are alike leave their passages in the same way. -/
theorem Alike.leave {r : Rendering κ σ} {s : Rendering κ τ} (h : r.Alike t s) :
    AlikeProgress t r.leave s.leave := by
  have hdone : AlikeProgress t (leave.done r) (leave.done s) := by
    have ho := h.outer
    unfold leave.done
    generalize r.outer = outer at ho ⊢
    generalize s.outer = outer' at ho ⊢
    cases ho with
    | nil => exact .finished h.state h.sink
    | cons hp ho => exact .running ⟨hp, ho, h.state, h.sink, h.room⟩
  unfold Rendering.leave
  rw [← h.state, ← h.passage.opened]
  cases r.state.frames with
  | nil => exact hdone
  | cons top below =>
    dsimp only
    split
    · exact .failed h.state h.sink
    · exact hdone

/-! ### Whole runs -/

/-- Where every passage is tracked, the innermost loop can go back when a token was read: in a template,
whatever the callback does, and in any text if none of its own starts a loop over. -/
theorem Tracked.canReplay {host : Host κ} {g : Token.Grammar} {text : List Char} {level : Nat}
    {r r' : Rendering κ σ} {raw : List Char} (h : r.Tracked host g text)
    (hl : level = 0 ∨ host.KeepsOn) (hm : r.meet host = .token raw r') (token : Token)
    (resolution : Resolution) (state : RenderState κ)
    (hres : r'.Resolves host raw token resolution state) (ha : resolution.action = .again) :
    (({ r' with state } : Rendering κ σ).followLoop token.kind resolution.action).CanReplay level := by
  obtain ⟨value, own, below, h⟩ := h
  have hmeets : r.Meets host value (r.meet host) := meets_meet h.tracks.shows
  rw [hm] at hmeets
  cases hmeets with
  | token hr ht =>
    have hreads := h.goesOnTo hr
    intro hlevel offset ho
    rcases hl with rfl | hkeeps
    · obtain ⟨_, own', hreads⟩ := hreads.resolves ht hres
      -- In the template no block belongs to a passage around it.
      have hbelow : below = [] := by
        refine List.eq_nil_iff_forall_not_mem.2 fun frame hm => ?_
        have := hreads.lower frame hm
        omega
      rw [hreads.frames, hbelow, List.append_nil] at ho
      cases own' with
      | nil => cases ho
      | cons top rest =>
        obtain ⟨hs, ht, _⟩ := (hreads.tracks.placed top List.mem_cons_self).atHand offset ho
        exact ⟨hs, ht⟩
    · obtain ⟨hclose, top, rest, place, hframes, _, hresume, hseek⟩ :=
        hreads.of_again hkeeps hres ha
      rw [followLoop_eq, follow_of_other (Token.Kind.isLoop_of_isLoopClose hclose) fun _ => ha] at ho ⊢
      have hplace : state.frames.head?.bind (·.resume) = some place := by
        rw [hframes]
        exact hresume
      cases hplace.symm.trans ho
      exact range_of_seek hseek

/-- Renderings that are alike, and whose passages are tracked, take the same step. -/
theorem Alike.step {r : Rendering κ σ} {s : Rendering κ τ} (h : r.Alike t s)
    {host : Host κ} (ht : t.Sound host.left) (hl : t.level = 0 ∨ host.KeepsOn) {g : Token.Grammar}
    (hr : r.Tracked host g t.text) (hs : s.Tracked host g t.text) :
    AlikeProgress t (r.step host) (s.step host) := by
  rw [step_eq, step_eq]
  have hmeet := h.meet ht
  cases hm : r.meet host with
  | token raw r' =>
    cases hm' : s.meet host with
    | token raw' s' =>
      rw [hm, hm'] at hmeet
      cases hmeet with
      | token halike => exact halike.act ht host raw (hr.canReplay hl hm) (hs.canReplay hl hm')
    | ending s' => rw [hm, hm'] at hmeet; cases hmeet
    | failure e s' => rw [hm, hm'] at hmeet; cases hmeet
  | ending r' =>
    cases hm' : s.meet host with
    | token raw' s' => rw [hm, hm'] at hmeet; cases hmeet
    | ending s' =>
      rw [hm, hm'] at hmeet
      cases hmeet with
      | ending halike => exact halike.leave
    | failure e s' => rw [hm, hm'] at hmeet; cases hmeet
  | failure e r' =>
    cases hm' : s.meet host with
    | token raw' s' => rw [hm, hm'] at hmeet; cases hmeet
    | ending s' => rw [hm, hm'] at hmeet; cases hmeet
    | failure e' s' =>
      rw [hm, hm'] at hmeet
      cases hmeet with
      | failure hstate hsink => exact .failed hstate hsink

/-- So they do however many steps they take. -/
theorem Alike.run {r : Rendering κ σ} {s : Rendering κ τ} (h : r.Alike t s)
    {host : Host κ} (ht : t.Sound host.left) (hl : t.level = 0 ∨ host.KeepsOn) {g : Token.Grammar}
    (hr : r.Tracked host g t.text) (hs : s.Tracked host g t.text) (steps : Nat) :
    AlikeProgress t (r.run host steps) (s.run host steps) := by
  induction steps generalizing r s with
  | zero => exact .running h
  | succ steps ih =>
    have hstep := h.step ht hl hr hs
    have hkeeps := hr.step
    have hkeeps' := hs.step
    unfold Rendering.run
    generalize r.step host = p at hstep hkeeps ⊢
    generalize s.step host = q at hstep hkeeps' ⊢
    cases hstep with
    | running halike => exact ih halike hkeeps hkeeps'
    | finished hstate hsink => exact .finished hstate hsink
    | failed hstate hsink => exact .failed hstate hsink

/-- Renderings that begin over windows which tell the same are alike. -/
theorem alike_start {w : Window σ} {v : Window τ} {state : RenderState κ} {sink : Sink}
    (pool pool' : Pool) (hw : w.Tells t.text t.ending) (hv : v.Tells t.text t.ending)
    (hkind : t.kind w) (hkind' : t.kind' v) (hc : w.cursor = v.cursor) (hg : w.growth = v.growth)
    (hroom : sink.room = none) :
    (start w t.level state pool sink).Alike t (start v t.level state pool' sink) :=
  ⟨⟨rfl, rfl, rfl, hc, hg, .inl ⟨rfl, hw, hv, hkind, hkind'⟩⟩, .nil, rfl, rfl, hroom⟩

end Rendering

/-- What is to be seen of a rendering that has ended: everything but the pool. -/
def Rendered.seen (rendered : Rendered κ) : Except RenderError Unit × Sink × Variables × κ :=
  (rendered.result, rendered.sink, rendered.vars, rendered.memory)

theorem Rendered.seen_of_alike {p : Progress κ σ} {q : Progress κ τ}
    (h : Rendering.AlikeProgress t p q) :
    (Rendered.ofProgress? p).map seen = (Rendered.ofProgress? q).map seen := by
  have hof : ∀ {r : Rendering κ σ} {s : Rendering κ τ}, r.state = s.state → r.sink = s.sink →
      ∀ result, (Rendered.of result r).seen = (Rendered.of result s).seen := by
    intro r s hstate hsink result
    show (result, r.sink, r.state.vars, r.state.memory) = _
    rw [hstate, hsink]
    rfl
  cases h with
  | running => rfl
  | finished hstate hsink => exact congrArg some (hof hstate hsink _)
  | failed hstate hsink => exact congrArg some (hof hstate hsink _)

/-- Texts that windows of sound kinds tell in the same way are rendered in the same way. -/
theorem Rendered.seen_of_sound {host : Host κ} (ht : t.Sound host.left)
    (hl : t.level = 0 ∨ host.KeepsOn) {w : Window σ} {v : Window τ} (vars : Variables) (memory : κ)
    {sink : Sink} (pool pool' : Pool) (hw : w.Tells t.text t.ending) (hv : v.Tells t.text t.ending)
    (hkind : t.kind w) (hkind' : t.kind' v) (hwc : w.cursor = 0) (hvc : v.cursor = 0)
    (hwg : w.growth = 0) (hvg : v.growth = 0) (hroom : sink.room = none) (steps : Nat) :
    (ofProgress? ((Rendering.start w t.level { vars, memory } pool sink).run host steps)).map seen =
      (ofProgress? ((Rendering.start v t.level { vars, memory } pool' sink).run host steps)).map
        seen := by
  have hnone : ∀ frame ∈ ({ vars, memory } : RenderState κ).frames, frame.level < t.level := nofun
  have halike : (Rendering.start w t.level { vars, memory } pool sink).Alike t
      (Rendering.start v t.level { vars, memory } pool' sink) :=
    Rendering.alike_start pool pool' hw hv hkind hkind' (hwc.trans hvc.symm) (hwg.trans hvg.symm)
      hroom
  exact Rendered.seen_of_alike (halike.run ht hl
    (Rendering.tracked_start pool sink hw.toShows hwg hnone)
    (Rendering.tracked_start pool' sink hv.toShows hvg hnone) steps)

/-- Templates that windows tell in the same way are rendered in the same way. -/
theorem Renderer.seen_render_of_tells {text : List Char} {ending : Option String}
    (renderer : Renderer κ) {w : Window σ} {v : Window τ} (vars : Variables) (memory : κ) {sink : Sink}
    (pool pool' : Pool) (hw : w.Tells text ending) (hv : v.Tells text ending) (hwc : w.cursor = 0)
    (hvc : v.cursor = 0) (hwg : w.growth = 0) (hvg : v.growth = 0) (hroom : sink.room = none)
    (steps : Nat) :
    (renderer.render steps w vars memory pool sink).map Rendered.seen =
      (renderer.render steps v vars memory pool' sink).map Rendered.seen :=
  Rendered.seen_of_sound (t := .template text ending) (Subject.sound_template ..) (.inl rfl) vars memory
    pool pool' hw hv trivial trivial hwc hvc hwg hvg hroom steps

end

/-- A reader of a text in UTF-8 that does not fail tells the text. -/
theorem Window.tells_reader {reader : ByteReader} {text : List Char}
    (ht : Text.ofUtf8? reader.data = some text) (hf : reader.failure = none) (size : Nat) :
    (streaming ({ reader } : Utf8Source) size).Tells text none := by
  obtain ⟨hchars, hbehind⟩ := Text.utf8Chars_of_ofUtf8? ht
  have htells : (streaming ({ reader } : Utf8Source) size).Tells (Text.utf8Chars reader.data)
      (Utf8Source.endingOf (Text.utf8Behind reader.data) reader.failure) :=
    tells_streaming ({ reader } : Utf8Source) size
  rw [hchars, hbehind, hf] at htells
  exact htells

/-- **How a template is delivered does not matter**: in whatever pieces and with however many
interruptions its bytes come, whatever the size of the window and the pool, a rendering into a sink
without a limit writes the same, leaves the same variables and callback memory, and has the same
result, after the same number of steps; so it is also where the reader fails or gives what is no
UTF-8. If the bytes are the UTF-8 of a text and the reader does not fail, all this is as over the text
itself. -/
theorem Renderer.seen_render_eq {κ : Type} (renderer : Renderer κ) (vars : Variables) (memory : κ)
    {sink : Sink} (hroom : sink.room = none) (data : List UInt8) (failure : Option String)
    (plan plan' : List Delivery) (size size' : Nat) (pool pool' : Pool) (steps : Nat) :
    let seen := fun plan size pool =>
      (renderer.render steps
        (.streaming ({ reader := { data, plan, failure } } : Utf8Source) size) vars memory pool
        sink).map Rendered.seen
    seen plan size pool = seen plan' size' pool' ∧
      ∀ text, Text.ofUtf8? data = some text → failure = none →
        seen plan size pool =
          (renderer.render steps (.fixed text : Window TextSource) vars memory pool' sink).map
            Rendered.seen := by
  intro seen
  have htells : ∀ plan size,
      (Window.streaming ({ reader := { data, plan, failure } } : Utf8Source) size).Tells
        (Text.utf8Chars data) (Utf8Source.endingOf (Text.utf8Behind data) failure) :=
    fun plan size =>
      Window.tells_streaming ({ reader := { data, plan, failure } } : Utf8Source) size
  refine ⟨?_, fun text ht hf => ?_⟩
  · exact renderer.seen_render_of_tells vars memory pool pool' (htells plan size)
      (htells plan' size') rfl rfl rfl rfl hroom steps
  · subst hf
    exact renderer.seen_render_of_tells vars memory pool pool' (Window.tells_reader ht rfl size)
      (Window.tells_fixed text : (Window.fixed text : Window TextSource).Tells text none) rfl rfl rfl
      rfl hroom steps

/-- What is to be seen of a text that was rendered is to be seen if it comes from a reader. -/
theorem Renderer.exists_renderReader {κ : Type} (renderer : Renderer κ) {reader : ByteReader}
    {text : List Char} (ht : Text.ofUtf8? reader.data = some text) (hf : reader.failure = none)
    {steps : Nat} {vars : Variables} {memory : κ} {pool : Pool} {out : Rendered κ}
    (h : renderer.renderText steps (String.ofList text) vars memory pool = some out) :
    ∃ out', renderer.renderReader steps reader vars memory pool {} = some out' ∧
      out'.seen = out.seen := by
  have hroom : ({} : Sink).room = none := rfl
  rw [renderText, String.toList_ofList] at h
  have hseen := renderer.seen_render_of_tells vars memory pool pool
    (Window.tells_reader ht hf renderer.host.options.windowSize)
    (Window.tells_fixed text : (Window.fixed text : Window TextSource).Tells text none) rfl rfl rfl rfl
    hroom steps
  rw [h, Option.map_some] at hseen
  exact Option.map_eq_some_iff.1 hseen

/-- A name whose only character is cut in two, in a window of one character. -/
theorem Renderer.seen_render_of_cut_character :
    let renderer : Renderer Unit := ⟨{}, rfl⟩
    let sink : Sink := {}
    let data : List UInt8 := [0x7B, 0x7B, 0xC3, 0xA9, 0x7D, 0x7D]
    let seen := fun plan size pool =>
      (renderer.render 2 (.streaming ({ reader := { data, plan } } : Utf8Source) size) {} () pool
        sink).map Rendered.seen
    sink.room = none ∧ Text.ofUtf8? data = some "{{é}}".toList ∧
      seen [.upTo 3, .interrupted, .upTo 1] 1 ⟨[⟨1⟩, ⟨7⟩], 2, 0⟩ = seen [] 4096 ⟨[], 0, 0⟩ ∧
      seen [.upTo 3, .interrupted, .upTo 1] 1 ⟨[⟨1⟩, ⟨7⟩], 2, 0⟩ =
        (renderer.render 2 (.fixed "{{é}}".toList : Window TextSource) {} () ⟨[], 0, 0⟩ sink).map
          Rendered.seen := by
  intro renderer sink data seen
  have hroom : sink.room = none := rfl
  have htext : Text.ofUtf8? data = some "{{é}}".toList := by decide +kernel
  obtain ⟨hsame, hfixed⟩ := renderer.seen_render_eq {} () hroom data none
    [.upTo 3, .interrupted, .upTo 1] [] 1 4096 ⟨[⟨1⟩, ⟨7⟩], 2, 0⟩ ⟨[], 0, 0⟩ 2
  exact ⟨hroom, htext, hsame, hfixed _ htext rfl⟩

end Stencil
