import Mathlib.Algebra.GroupWithZero.Nat
import Stencil.Proofs.Passage

/-! The books of a pool.

A buffer is in use as long as a segment of some window is kept in it. A window that is used takes as
many buffers as it gets segments, and gives back as many as it loses (`Window.Settled`); so does a
rendering, which reads its template through one such window, while the values nested in it are all
there and need no buffers (`Rendering.settled_step`). -/
namespace Stencil

namespace Pool
variable {held held' held'' : Nat} {pool pool' pool'' : Pool}

/-- Someone who held some buffers holds others now, and the pool was told of every one that was taken or
given back. -/
structure Balances (held : Nat) (pool : Pool) (held' : Nat) (pool' : Pool) : Prop where
  outstanding : held ≤ pool.outstanding →
    pool'.outstanding + held = pool.outstanding + held'
  maxIdle : pool'.maxIdle = pool.maxIdle
  idle : pool.idle ≤ pool.maxIdle → pool'.idle ≤ pool.maxIdle

namespace Balances

theorem refl (held : Nat) (pool : Pool) : pool.Balances held held pool :=
  ⟨fun _ => rfl, rfl, id⟩

theorem trans (h : Balances held pool held' pool') (h' : Balances held' pool' held'' pool'') :
    Balances held pool held'' pool'' where
  outstanding hle := by
    have h₁ := h.outstanding hle
    have h₂ := h'.outstanding (by omega)
    omega
  maxIdle := h'.maxIdle.trans h.maxIdle
  idle hle := by
    have := h'.idle (h.maxIdle ▸ h.idle hle)
    rwa [h.maxIdle] at this

/-- What others hold does not matter. -/
theorem frame (h : Balances held pool held' pool') (others : Nat) :
    Balances (held + others) pool (held' + others) pool' where
  outstanding hle := by
    have := h.outstanding (by omega)
    omega
  maxIdle := h.maxIdle
  idle := h.idle

end Balances

theorem balances_checkOut (pool : Pool) (size held : Nat) :
    Balances held pool (held + 1) (pool.checkOut size).2 := by
  unfold checkOut
  split
  · next buffer hf =>
    refine ⟨fun _ => ?_, rfl, fun hle => ?_⟩
    · show pool.outstanding + 1 + held = _
      omega
    · exact Nat.le_trans (List.length_erase_le) hle
  · refine ⟨fun _ => ?_, rfl, id⟩
    show pool.outstanding + 1 + held = _
    omega

theorem balances_giveBack (pool : Pool) (buffer : Buffer) (held : Nat) :
    Balances (held + 1) pool held (pool.giveBack buffer) := by
  unfold giveBack
  split
  · next hlt =>
    refine ⟨fun hle => ?_, rfl, fun _ => ?_⟩
    · show pool.outstanding - 1 + (held + 1) = _
      omega
    · show (pool.free ++ [buffer]).length ≤ pool.maxIdle
      rw [List.length_append]
      exact hlt
  · refine ⟨fun hle => ?_, rfl, id⟩
    show pool.outstanding - 1 + (held + 1) = _
    omega

theorem balances_giveBackAll (buffers : List Buffer) (pool : Pool) (held : Nat) :
    Balances (held + buffers.length) pool held (pool.giveBackAll buffers) := by
  induction buffers generalizing pool with
  | nil => exact .refl held pool
  | cons buffer buffers ih => exact (pool.balances_giveBack buffer _).trans (ih _)

end Pool

open Pool (Balances)

/-! ### Windows -/

namespace Window
variable {σ : Type}

/-- How many buffers of the pool a window holds: one for each segment, unless its text is all there. -/
def held (w : Window σ) : Nat :=
  if w.isFixed then 0 else w.segments.length

theorem held_of_isFixed {w : Window σ} (h : w.isFixed = true) : w.held = 0 := if_pos h

theorem held_of_streaming {w : Window σ} (h : w.isFixed = false) : w.held = w.segments.length :=
  if_neg (Bool.eq_false_iff.1 h)

/-- A window and the pool after the window was used: the pool was told of every buffer, and was left
alone if the text is all there. -/
structure Settled (s s' : Window σ × Pool) : Prop
    extends Balances s.1.held s.2 s'.1.held s'.2 where
  isFixed : s'.1.isFixed = s.1.isFixed
  pool_eq : s.1.isFixed = true → s'.2 = s.2

namespace Settled
variable {s s' s'' : Window σ × Pool}

theorem refl (s : Window σ × Pool) : Settled s s :=
  ⟨.refl _ _, rfl, fun _ => rfl⟩

theorem trans (h : Settled s s') (h' : Settled s' s'') : Settled s s'' where
  toBalances := h.toBalances.trans h'.toBalances
  isFixed := h'.isFixed.trans h.isFixed
  pool_eq hf := (h'.pool_eq (h.isFixed.trans hf)).trans (h.pool_eq hf)

/-- The cursor and the open loops are not in the books. -/
theorem moved (h : Settled s s') (cursor growth : Nat) :
    Settled s ({ s'.1 with cursor, growth }, s'.2) :=
  ⟨h.toBalances, h.isFixed, h.pool_eq⟩

end Settled

/-- Segments that are dropped are given back. -/
theorem settled_recycle {w : Window σ} {dropped kept : List Segment} (pool : Pool)
    (h : w.segments.length = dropped.length + kept.length) :
    Settled (w, pool) ({ w with segments := kept }, w.recycle dropped pool) := by
  have hcases : (w.isFixed = true ∧ w.recycle dropped pool = pool) ∨
      (w.isFixed = false ∧
        w.recycle dropped pool = pool.giveBackAll (dropped.map (·.buffer))) := by
    unfold isFixed recycle
    cases w.supply with
    | fixed => exact .inl ⟨rfl, rfl⟩
    | streaming source size ended => exact .inr ⟨rfl, rfl⟩
  rcases hcases with ⟨hf, hp⟩ | ⟨hf, hp⟩
  · have hkept : ({ w with segments := kept } : Window σ).held = w.held := by
      rw [held_of_isFixed hf]
      exact held_of_isFixed hf
    rw [hp]
    refine ⟨?_, rfl, fun _ => rfl⟩
    show Balances w.held pool ({ w with segments := kept } : Window σ).held pool
    rw [hkept]
    exact .refl _ _
  · have hb := Pool.balances_giveBackAll (dropped.map (·.buffer)) pool kept.length
    rw [List.length_map, Nat.add_comm, ← h] at hb
    have hkept : ({ w with segments := kept } : Window σ).held = kept.length := held_of_streaming hf
    rw [hp]
    refine ⟨?_, rfl, fun ht => absurd (ht.symm.trans hf) nofun⟩
    show Balances w.held pool ({ w with segments := kept } : Window σ).held _
    rw [held_of_streaming hf, hkept]
    exact hb

theorem settled_release (w : Window σ) (pool : Pool) : Settled (w, pool) (w.release pool) :=
  settled_recycle pool rfl

theorem held_release (w : Window σ) (pool : Pool) : (w.release pool).1.held = 0 := by
  show (if w.isFixed then 0 else 0) = 0
  exact ite_self 0

theorem settled_trim (w : Window σ) (pool : Pool) : Settled (w, pool) (w.trim pool) := by
  unfold trim
  split
  · obtain ⟨front, hfront⟩ := (dropBehind_suffix w.cursor w.segments).1
    refine settled_recycle pool ?_
    have hlen := congrArg List.length hfront
    rw [List.length_append] at hlen
    rw [List.length_take]
    omega
  · exact .refl _

theorem settled_closeLoop (w : Window σ) (pool : Pool) : Settled (w, pool) (w.closeLoop pool) := by
  unfold closeLoop
  split
  · exact .refl _
  · exact ((Settled.refl (w, pool)).moved w.cursor 0).trans (settled_trim _ pool)
  · exact (Settled.refl (w, pool)).moved w.cursor _

theorem settled_seek {w w' : Window σ} {offset : Nat} (h : w.seek offset = .ok w') (pool : Pool) :
    Settled (w, pool) (w', pool) := by
  unfold seek at h
  split at h
  · cases h
    exact (Settled.refl (w, pool)).moved offset w.growth
  · cases h

/-- Making room takes a buffer or uses the last one again, and gives back what is left behind. -/
theorem balances_makeRoom (w : Window σ) (size : Nat) (pool : Pool) :
    Balances w.segments.length pool ((w.makeRoom size pool).1.length + 1)
      (w.makeRoom size pool).2.2 := by
  unfold makeRoom
  split
  · next hl =>
    rw [List.getLast?_eq_none_iff] at hl
    rw [hl]
    exact pool.balances_checkOut size 0
  · next last hl =>
    obtain ⟨before, hs⟩ := List.getLast?_eq_some_iff.1 hl
    have hlen : w.segments.length = before.length + 1 := by rw [hs, List.length_append]; rfl
    have hlast : w.segments.dropLast = before := by rw [hs, List.dropLast_concat]
    split
    · split
      · have hb := pool.balances_giveBackAll (before.map (·.buffer)) 1
        rw [List.length_map, Nat.add_comm, ← hlen] at hb
        rw [hlast]
        exact hb
      · exact pool.balances_checkOut size _
    · rw [hlast, hlen]
      exact .refl _ _

variable [CharSource σ]

theorem settled_fill {w w' : Window σ} {pool pool' : Pool} {result : Except RenderError Bool}
    (h : w.fill pool = (result, w', pool')) : Settled (w, pool) (w', pool') := by
  rcases fill_cases h with ⟨hs, _, rfl⟩ | ⟨source, size, hs, _, rfl⟩ |
    ⟨source, size, before, last, answer, source', hs, hm, _, hcase⟩
  · simp only [fill, hs, Prod.mk.injEq] at h
    rw [← h.2.2]
    exact .refl _
  · simp only [fill, hs, if_true, Prod.mk.injEq] at h
    rw [← h.2.2]
    exact .refl _
  · -- Whatever the source answered, the room was made: a failed read keeps the buffer in a segment.
    have hfilled : ∀ ended cs,
        Settled (w, pool) (w.filled before last source' size ended cs, pool') := by
      intro ended cs
      have hf : w.isFixed = false := by simp [isFixed, hs]
      have hf' : (w.filled before last source' size ended cs).isFixed = false := rfl
      have hb := w.balances_makeRoom size pool
      rw [hm] at hb
      refine ⟨?_, hf'.trans hf.symm, fun ht => Bool.noConfusion (ht.symm.trans hf)⟩
      show Balances w.held pool (w.filled before last source' size ended cs).held pool'
      rw [held_of_streaming hf, held_of_streaming hf']
      simpa [filled] using hb
    rcases hcase with ⟨e, _, _, rfl⟩ | ⟨_, _, rfl⟩ | ⟨c, cs, _, _, rfl⟩
    · exact hfilled false []
    · exact hfilled true []
    · exact hfilled false (c :: cs)

theorem settled_span (w : Window σ) (pool : Pool) : Settled (w, pool) (w.span pool).2 := by
  fun_induction Window.span w pool with
  | case1 => exact .refl _
  | case2 w pool hr w₁ pool₁ hf ih => exact (settled_fill hf).trans ih
  | case3 w pool hr w₁ pool₁ hf => exact settled_fill hf
  | case4 w pool hr e w₁ pool₁ hf => exact settled_fill hf

/-- What the owner of a window does with it. -/
inductive Use where
  /-- Ask for the characters from the cursor on. -/
  | span
  | advance (count : Nat)
  /-- Move the cursor; if that is refused, nothing happens. -/
  | seek (offset : Nat)
  | openLoop
  | closeLoop
  | trim
  | release
  deriving DecidableEq, Repr

def Use.after (s : Window σ × Pool) : Use → Window σ × Pool
  | span => (s.1.span s.2).2
  | advance count => (s.1.advance count, s.2)
  | seek offset =>
    match s.1.seek offset with
    | .ok w => (w, s.2)
    | .error _ => s
  | openLoop => (s.1.openLoop, s.2)
  | closeLoop => s.1.closeLoop s.2
  | trim => s.1.trim s.2
  | release => s.1.release s.2

theorem settled_after (s : Window σ × Pool) (use : Use) : Settled s (use.after s) := by
  obtain ⟨w, pool⟩ := s
  cases use with
  | span => exact w.settled_span pool
  | advance count => exact (Settled.refl (w, pool)).moved _ _
  | seek offset =>
    cases hw : w.seek offset with
    | ok w' =>
      have hs : (Use.seek offset).after (w, pool) = (w', pool) := by simp only [Use.after, hw]
      rw [hs]
      exact settled_seek hw pool
    | error e =>
      have hs : (Use.seek offset).after (w, pool) = (w, pool) := by simp only [Use.after, hw]
      rw [hs]
      exact .refl _
  | openLoop => exact (Settled.refl (w, pool)).moved _ _
  | closeLoop => exact w.settled_closeLoop pool
  | trim => exact w.settled_trim pool
  | release => exact w.settled_release pool

end Window

/-! ### Renderings -/

namespace Rendering
variable {κ σ : Type}

def passages (r : Rendering κ σ) : List (Passage σ) :=
  r.passage :: r.outer

/-- How many buffers the windows of some passages hold. -/
def heldBy (passages : List (Passage σ)) : Nat :=
  (passages.map (·.window.held)).sum

theorem heldBy_of_isFixed {passages : List (Passage σ)}
    (h : ∀ passage ∈ passages, passage.window.isFixed = true) : heldBy passages = 0 := by
  induction passages with
  | nil => rfl
  | cons passage passages ih =>
    show passage.window.held + heldBy passages = 0
    rw [Window.held_of_isFixed (h passage List.mem_cons_self),
      ih fun p hp => h p (List.mem_cons_of_mem _ hp)]

def held (r : Rendering κ σ) : Nat :=
  heldBy r.passages

/-- Only the outermost passage is read from a source: the values nested in it are all there. -/
def NestsFixed (r : Rendering κ σ) : Prop :=
  ∀ passage ∈ r.passages.dropLast, passage.window.isFixed = true

theorem getLast?_passages (r : Rendering κ σ) : r.passages.getLast? = some r.outermost :=
  List.getLast?_cons

theorem NestsFixed.of_outer {r : Rendering κ σ} (h : r.NestsFixed) (ho : r.outer ≠ []) :
    r.passage.window.isFixed = true := by
  refine h _ ?_
  rw [passages, List.dropLast_cons_of_ne_nil ho]
  exact List.mem_cons_self

/-- So a rendering holds what its outermost window holds. -/
theorem NestsFixed.held_eq {r : Rendering κ σ} (h : r.NestsFixed) :
    r.held = r.outermost.window.held := by
  obtain ⟨nested, hp⟩ := List.getLast?_eq_some_iff.1 r.getLast?_passages
  have hn : heldBy nested = 0 :=
    heldBy_of_isFixed fun passage hm => h passage (by rwa [hp, List.dropLast_concat])
  have hsum : r.held = heldBy nested + r.outermost.window.held := by
    rw [held, hp, heldBy, List.map_append, List.sum_append, List.map_singleton, List.sum_singleton]
    rfl
  rw [hsum, hn, Nat.zero_add]

/-- A rendering that went on: the pool was told of every buffer, and was left alone if the passage that
was read is all there. -/
structure Settled (r r' : Rendering κ σ) : Prop
    extends Balances r.held r.pool r'.held r'.pool where
  nestsFixed : r.NestsFixed → r'.NestsFixed
  pool_eq : r.passage.window.isFixed = true → r'.pool = r.pool

/-- The same, in the passage that it was in. -/
structure Uses (r r' : Rendering κ σ) : Prop where
  window : Window.Settled (r.passage.window, r.pool) (r'.passage.window, r'.pool)
  outer : r'.outer = r.outer

namespace Uses
variable {r r' r'' : Rendering κ σ}

theorem refl (r : Rendering κ σ) : r.Uses r := ⟨.refl _, rfl⟩

theorem trans (h : r.Uses r') (h' : r'.Uses r'') : r.Uses r'' :=
  ⟨h.window.trans h'.window, h'.outer.trans h.outer⟩

/-- What else a rendering carries is not in the books. -/
theorem carrying (h : r.Uses r') (state : RenderState κ) (sink : Sink) :
    r.Uses { r' with state, sink } :=
  ⟨h.window, h.outer⟩

theorem settled (h : r.Uses r') : r.Settled r' where
  toBalances := by
    show Balances (r.passage.window.held + heldBy r.outer) r.pool
      (r'.passage.window.held + heldBy r'.outer) r'.pool
    rw [h.outer]
    exact h.window.toBalances.frame _
  nestsFixed hn := by
    rcases ho : r.outer with _ | ⟨passage, outer⟩
    · rw [NestsFixed, passages, h.outer, ho]
      exact nofun
    · have hne : r.outer ≠ [] := by rw [ho]; exact List.cons_ne_nil _ _
      rw [NestsFixed, passages, List.dropLast_cons_of_ne_nil hne] at hn
      rw [NestsFixed, passages, h.outer, List.dropLast_cons_of_ne_nil hne]
      intro p hp
      rcases List.mem_cons.1 hp with rfl | hp
      · exact h.window.isFixed.trans (hn _ List.mem_cons_self)
      · exact hn p (List.mem_cons_of_mem _ hp)
  pool_eq := h.window.pool_eq

end Uses

namespace Settled
variable {r r' r'' : Rendering κ σ}

/-- A rendering that used its window goes on. -/
theorem uses_trans (h : r.Uses r') (h' : r'.Settled r'') : r.Settled r'' where
  toBalances := h.settled.toBalances.trans h'.toBalances
  nestsFixed hn := h'.nestsFixed (h.settled.nestsFixed hn)
  pool_eq hf := (h'.pool_eq (h.window.isFixed.trans hf)).trans (h.window.pool_eq hf)

end Settled

theorem uses_writeLiteral {r r' : Rendering κ σ} {cs : List Char} {result : Except RenderError Unit}
    (h : r.writeLiteral cs = (result, r')) : r.Uses r' := by
  obtain ⟨sink, rfl, _⟩ := writeLiteral_eq h
  exact (Uses.refl r).carrying r.state sink

theorem uses_advance (r : Rendering κ σ) (count : Nat) : r.Uses (r.advance count) :=
  ⟨(Window.Settled.refl (r.passage.window, r.pool)).moved _ _, rfl⟩

section Reading
variable [CharSource σ]

theorem uses_span {r r' : Rendering κ σ} {result : Except RenderError (List Char)}
    (h : r.span = (result, r')) : r.Uses r' := by
  obtain ⟨window, pool, hw, rfl⟩ := of_span h
  have hs := Window.settled_span r.passage.window r.pool
  rw [hw] at hs
  exact ⟨hs, rfl⟩

theorem uses_meet (host : Host κ) (r : Rendering κ σ) : r.Uses (r.meet host).rendering :=
  meet_invariant (P := r.Uses) (fun _ h => h.trans (uses_span rfl))
    (fun r' count h => h.trans (uses_advance r' count))
    (fun _ _ h => h.trans (uses_writeLiteral rfl)) host (.refl r)

end Reading

theorem uses_followLoop (r : Rendering κ σ) (kind : Token.Kind) (action : Action) :
    r.Uses (r.followLoop kind action) := by
  unfold followLoop
  dsimp only
  split
  · exact ⟨(Window.Settled.refl (r.passage.window, r.pool)).moved _ _, rfl⟩
  · split
    · exact ⟨Window.settled_closeLoop r.passage.window r.pool, rfl⟩
    · exact .refl r

/-- A passage that begins is all there. -/
theorem settled_enter (r : Rendering κ σ) (value : List Char) (id : Nat) :
    r.Settled (r.enter value id) where
  toBalances := by
    have hh : (r.enter value id).held = r.held := Nat.zero_add _
    rw [hh]
    exact .refl _ _
  nestsFixed hn := by
    have hd : (r.enter value id).passages.dropLast =
        (r.enter value id).passage :: r.passages.dropLast :=
      List.dropLast_cons_of_ne_nil (List.cons_ne_nil _ _)
    intro p hp
    rw [hd] at hp
    rcases List.mem_cons.1 hp with rfl | hp
    · rfl
    · exact hn p hp
  pool_eq _ := rfl

theorem uses_replay (r : Rendering κ σ) (id : Nat) : r.Uses (r.replay id).rendering := by
  unfold replay
  split
  · exact .refl r
  · split
    · exact .refl r
    · next hs => exact ⟨Window.settled_seek hs r.pool, rfl⟩

theorem uses_emit (r : Rendering κ σ) (text : List Char) : r.Uses (r.emit text).rendering := by
  have hsink : r.Uses (r.write text).2 := (Uses.refl r).carrying r.state _
  unfold emit
  split
  · next hw =>
    rw [hw] at hsink
    exact hsink
  · next hw =>
    rw [hw] at hsink
    exact hsink

theorem settled_carryOut (host : Host κ) (r : Rendering κ σ) (id : Nat) (resolution : Resolution) :
    r.Settled (carryOut host r id resolution).rendering := by
  unfold carryOut
  split
  · exact (r.uses_replay id).settled
  · exact (Uses.refl r).settled
  · exact (r.uses_emit _).settled
  · split
    · next value _ =>
      unfold expand
      split
      · split
        · exact (Uses.refl r).settled
        · exact r.settled_enter value.toList id
      · exact (r.uses_emit _).settled
    · exact (Uses.refl r).settled

theorem settled_act (host : Host κ) (r : Rendering κ σ) (raw : List Char) :
    r.Settled (act host r raw).rendering := by
  rcases act_cases host r raw with ⟨token, resolution, state, hres⟩ | ⟨e, state, he, _⟩
  · rw [act_of_resolves hres]
    exact .uses_trans
      (((Uses.refl r).carrying state r.sink).trans (uses_followLoop _ token.kind resolution.action))
      (settled_carryOut ..)
  · rw [he]
    exact ((Uses.refl r).carrying state r.sink).settled

/-- A nested passage holds nothing when it is left. -/
theorem settled_leave {r : Rendering κ σ} (h : r.NestsFixed) : r.Settled r.leave.rendering := by
  rcases r.leave_cases with ⟨e, he, _⟩ | ⟨_, ⟨_, hd⟩ | ⟨passage, outer, ho, hd⟩⟩
  · rw [he]
    exact (Uses.refl r).settled
  · rw [hd]
    exact (Uses.refl r).settled
  · have hne : r.outer ≠ [] := by rw [ho]; exact List.cons_ne_nil _ _
    have hheld : r.held = heldBy (passage :: outer) := by
      show r.passage.window.held + heldBy r.outer = _
      rw [Window.held_of_isFixed (h.of_outer hne), ho, Nat.zero_add]
    rw [hd]
    refine ⟨?_, fun hn p hp => hn p ?_, fun _ => rfl⟩
    · show Balances r.held r.pool (heldBy (passage :: outer)) r.pool
      rw [hheld]
      exact .refl _ _
    · rw [passages, List.dropLast_cons_of_ne_nil hne, ho]
      exact List.mem_cons_of_mem _ hp

variable [CharSource σ]

/-- Whatever a step does, the pool is told of the buffers. -/
theorem settled_step (host : Host κ) {r : Rendering κ σ} (h : r.NestsFixed) :
    r.Settled (r.step host).rendering := by
  have hm := r.uses_meet host
  rw [step_eq]
  cases hmeet : r.meet host with
  | token raw r' =>
    rw [hmeet] at hm
    exact .uses_trans hm (settled_act host r' raw)
  | ending r' =>
    rw [hmeet] at hm
    exact .uses_trans hm (settled_leave (hm.settled.nestsFixed h))
  | failure e r' =>
    rw [hmeet] at hm
    exact hm.settled

theorem balances_run (host : Host κ) {r : Rendering κ σ} (h : r.NestsFixed) (steps : Nat) :
    (r.run host steps).rendering.NestsFixed ∧
      Balances r.held r.pool (r.run host steps).rendering.held
        (r.run host steps).rendering.pool := by
  refine run_invariant (P := fun progress => progress.rendering.NestsFixed ∧
    Balances r.held r.pool progress.rendering.held progress.rendering.pool) ?_ ⟨h, .refl _ _⟩ steps
  rintro r' ⟨hn, hb⟩
  have hs := settled_step host (r := r') hn
  exact ⟨hs.nestsFixed hn, hb.trans hs.toBalances⟩

end Rendering

end Stencil
