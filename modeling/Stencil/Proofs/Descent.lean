import Mathlib.Data.List.Chain
import Mathlib.Order.WellFounded
import Stencil.Proofs.Nesting

/-! How much is still to come of a rendering.

A rendering can go on from the cursors of its passages, and from the beginnings of the loops over items
that are open in them. What can come of one such place is its `Prospect`: how much deeper passages may
stand there, then how much text is behind it, then how many rounds begin there. Taken from the
innermost place outwards prospects get greater, and a step puts any number of places in the place of
one from which more could come (`Prospect.Descends`), which cannot go on for ever
(`Prospect.wellFounded_falls`). What a token does to the open blocks is such a step, unless it opens a
`while` that is rendered (`FrameStep.descends`, `Host.KeepsOn.descends_again`). -/
namespace Stencil

/-- What can come of one place that a rendering can go on from. -/
structure Prospect where
  /-- How many levels of values may stand in its passage. -/
  depth : Nat
  /-- How many characters of the passage are behind it. -/
  ahead : Nat
  /-- How many more rounds begin there, and one; 0 at a cursor. -/
  rounds : Nat

namespace Prospect

/-- Less can come of one place than of the other. -/
inductive Less (p p' : Prospect) : Prop
  | depth (h : p.depth < p'.depth)
  | ahead (hd : p.depth = p'.depth) (h : p.ahead < p'.ahead)
  | rounds (hd : p.depth = p'.depth) (ha : p.ahead = p'.ahead) (h : p.rounds < p'.rounds)

theorem Less.trans {p p' p'' : Prospect} (h : Less p p') (h' : Less p' p'') : Less p p'' := by
  cases h with
  | depth h =>
    cases h' with
    | depth h' => exact .depth (Nat.lt_trans h h')
    | ahead hd => exact .depth (hd ▸ h)
    | rounds hd => exact .depth (hd ▸ h)
  | ahead hd h =>
    cases h' with
    | depth h' => exact .depth (hd ▸ h')
    | ahead hd' h' => exact .ahead (hd.trans hd') (Nat.lt_trans h h')
    | rounds hd' ha' => exact .ahead (hd.trans hd') (ha' ▸ h)
  | rounds hd ha h =>
    cases h' with
    | depth h' => exact .depth (hd ▸ h')
    | ahead hd' h' => exact .ahead (hd.trans hd') (ha ▸ h')
    | rounds hd' ha' h' => exact .rounds (hd.trans hd') (ha.trans ha') (Nat.lt_trans h h')

theorem wellFounded_less : WellFounded Less := by
  have hlex := Nat.lt_wfRel.wf.prod_lex (Nat.lt_wfRel.wf.prod_lex Nat.lt_wfRel.wf)
  refine Subrelation.wf (fun {p p'} h => ?_)
    (InvImage.wf (fun p : Prospect => (p.depth, p.ahead, p.rounds)) hlex)
  refine Prod.lex_def.2 ?_
  cases h with
  | depth h => exact .inl h
  | ahead hd h => exact .inr ⟨hd, Prod.lex_def.2 (.inl h)⟩
  | rounds hd ha h => exact .inr ⟨hd, Prod.lex_def.2 (.inr ⟨ha, h⟩)⟩

/-! ### Prospects from the innermost place outwards -/

/-- Where the prospects of two renderings differ first, from the outside, less comes of the one, or it
has no more of them. -/
def Falls (after before : List Prospect) : Prop :=
  List.Lex Less after.reverse before.reverse

/-- Prospects that get greater outwards cannot fall for ever. -/
theorem wellFounded_falls : WellFounded
    fun after before : { prospects : List Prospect // prospects.Pairwise Less } =>
      Falls after.1 before.1 :=
  InvImage.wf (fun prospects : { prospects : List Prospect // prospects.Pairwise Less } =>
      (⟨prospects.1.reverse, (List.pairwise_reverse.2 prospects.2).isChain⟩ : List.chains Less))
    wellFounded_less.list_chain'

/-- A passage is left. -/
theorem falls_of_append {front rest : List Prospect} (hn : front ≠ []) :
    Falls rest (front ++ rest) := by
  unfold Falls
  rw [List.reverse_append]
  cases hr : front.reverse with
  | nil => exact absurd (List.reverse_eq_nil_iff.1 hr) hn
  | cons last front' =>
    have hlex := List.Lex.append_left Less (List.Lex.nil (a := last) (l := front')) rest.reverse
    rw [List.append_nil] at hlex
    exact hlex

/-- The prospects get greater outwards, and any number of them stand in the place of one of which more
could come, and of all that are further in. -/
structure Descends (after before : List Prospect) : Prop where
  sorted : after.Pairwise Less
  exists_less : ∃ inner inner' rest p p', after = inner ++ p :: rest ∧ before = inner' ++ p' :: rest ∧
    Less p p'

theorem Descends.falls {after before : List Prospect} (h : Descends after before) :
    Falls after before := by
  obtain ⟨inner, inner', rest, p, p', rfl, rfl, hp⟩ := h.exists_less
  unfold Falls
  rw [List.reverse_append, List.reverse_append, List.reverse_cons, List.reverse_cons,
    List.append_assoc, List.append_assoc]
  exact List.Lex.append_left Less (.rel hp) rest.reverse

/-- One place stands in the place of others that are further in than the rest. -/
theorem descends_of_less {p p' : Prospect} (inner : List Prospect) {rest : List Prospect}
    (hs : (p' :: (inner ++ rest)).Pairwise Less) (hp : Less p p') :
    Descends (p :: rest) (p' :: (inner ++ rest)) := by
  obtain ⟨hless, hsorted⟩ := List.pairwise_cons.1 hs
  have hrest : ∀ q ∈ rest, Less p q := fun q hq => hp.trans (hless q (List.mem_append_right _ hq))
  refine ⟨List.pairwise_cons.2 ⟨hrest, (List.pairwise_append.1 hsorted).2.1⟩, ?_⟩
  -- What stands directly in front of the rest is the place of which more could come.
  rcases List.eq_nil_or_concat' inner with rfl | ⟨front, last, rfl⟩
  · exact ⟨[], [], rest, p, p', rfl, rfl, hp⟩
  · refine ⟨[], p' :: front, rest, p, last, rfl, ?_, hp.trans (hless last ?_)⟩
    · rw [List.append_assoc]
      rfl
    · exact List.mem_append_left _ (List.mem_append_right _ (List.mem_singleton_self last))

/-- One more place is further in than all others. -/
theorem Descends.cons {p p' : Prospect} {rest before : List Prospect}
    (h : Descends (p' :: rest) before) (hp : Less p p') : Descends (p :: p' :: rest) before := by
  obtain ⟨inner, inner', rest', q, q', hafter, hbefore, hq⟩ := h.exists_less
  refine ⟨List.pairwise_cons.2 ⟨List.forall_mem_cons.2 ⟨hp, fun q hq => ?_⟩, h.sorted⟩,
    p :: inner, inner', rest', q, q', congrArg (p :: ·) hafter, hbefore, hq⟩
  exact hp.trans ((List.pairwise_cons.1 h.sorted).1 q hq)

/-- The other rendering could go on from one more place, further in than all others. -/
theorem Descends.of_cons {after before : List Prospect} (h : Descends after before) (p : Prospect) :
    Descends after (p :: before) := by
  obtain ⟨inner, inner', rest, q, q', hafter, hbefore, hq⟩ := h.exists_less
  exact ⟨h.sorted, inner, p :: inner', rest, q, q', hafter, congrArg (p :: ·) hbefore, hq⟩

end Prospect

/-! ### Open blocks -/

/-- What can come of the beginning of a loop over items, in a passage with so many characters. -/
def Frame.prospect? (depth total : Nat) (frame : Frame) : Option Prospect :=
  match frame.resume, frame.items with
  | some offset, some items => some ⟨depth, total - offset, items.length + 1⟩
  | _, _ => none

/-- What can come of the beginnings of all loops over items among the blocks of a passage. -/
def Frames.prospects (depth total : Nat) (frames : Frames) : List Prospect :=
  frames.filterMap (·.prospect? depth total)

theorem Frames.prospects_append (depth total : Nat) (front back : Frames) :
    (front ++ back).prospects depth total =
      front.prospects depth total ++ back.prospects depth total :=
  List.filterMap_append

theorem Frames.prospects_cons {depth total : Nat} {frame : Frame} (frames : Frames)
    (h : frame.items = none) :
    Frames.prospects depth total (frame :: frames) = frames.prospects depth total := by
  refine List.filterMap_cons_none ?_
  unfold Frame.prospect?
  rw [h]
  split
  · next hn => cases hn
  · rfl

/-- No `while` is rendered. -/
def Frames.NoWhile (frames : Frames) : Prop :=
  ∀ frame ∈ frames, frame.kind = .whileOpen → frame.truthy = false

section
variable {depth total cursor ahead level : Nat} {token : Token} {own below frames : Frames}
  {around : List Prospect} {resolution : Resolution}

open Prospect

/-- A token that starts no loop over changes the blocks of its passage so that less can come of them
and of the cursor behind it than of them and the cursor in front of it. -/
theorem FrameStep.descends (h : FrameStep token level cursor (own ++ below) resolution frames)
    (hl : ∀ frame ∈ own, frame.level = level) (hb : ∀ frame ∈ below, frame.level < level)
    (hs : (⟨depth, ahead, 0⟩ :: (own.prospects depth total ++ around)).Pairwise Less)
    (hc : total - cursor < ahead) (ha : resolution.action ≠ .again) :
    ∃ own' : Frames, frames = own' ++ below ∧ (∀ frame ∈ own', frame.level = level) ∧
      Descends (⟨depth, total - cursor, 0⟩ :: (own'.prospects depth total ++ around))
        (⟨depth, ahead, 0⟩ :: (own.prospects depth total ++ around)) := by
  -- Blocks are taken off the top, perhaps none.
  have hdrop : ∀ (front more : Frames) (rounds : Nat), own = front ++ more →
      Descends (⟨depth, total - cursor, rounds⟩ :: (more.prospects depth total ++ around))
        (⟨depth, ahead, 0⟩ :: (own.prospects depth total ++ around)) := by
    rintro front more rounds rfl
    rw [Frames.prospects_append, List.append_assoc] at hs ⊢
    exact descends_of_less _ hs (.ahead rfl hc)
  -- A block that is no loop over items is put on top.
  have hpush : ∀ frame : Frame, frame.level = level → frame.items = none →
      ∃ own' : Frames, frame :: (own ++ below) = own' ++ below ∧
        (∀ frame ∈ own', frame.level = level) ∧
        Descends (⟨depth, total - cursor, 0⟩ :: (own'.prospects depth total ++ around))
          (⟨depth, ahead, 0⟩ :: (own.prospects depth total ++ around)) := by
    intro frame hf hn
    refine ⟨frame :: own, rfl, List.forall_mem_cons.2 ⟨hf, hl⟩, ?_⟩
    rw [Frames.prospects_cons own hn]
    exact hdrop [] own 0 rfl
  generalize hf : own ++ below = frames₀ at h hpush
  cases h with
  | written hw => exact ⟨own, hf.symm, hl, hdrop [] own 0 rfl⟩
  | defined hk => exact ⟨own, hf.symm, hl, hdrop [] own 0 rfl⟩
  | skipped => exact hpush _ (by rfl) (by rfl)
  | ifOpened => exact hpush _ (by rfl) (by rfl)
  | whileOpened => exact hpush _ (by rfl) (by rfl)
  | eachEmpty => exact hpush _ (by rfl) (by rfl)
  | eachOpened items =>
    refine ⟨_ :: own, by rw [← hf]; rfl, List.forall_mem_cons.2 ⟨rfl, hl⟩, ?_⟩
    exact (hdrop [] own (items.length + 1) rfl).cons (.rounds rfl rfl (Nat.succ_pos _))
  | elseMarked => exact hpush _ (by rfl) (by rfl)
  | ifClosed hk ht htop =>
    obtain ⟨more, rfl, rfl⟩ := Frames.cons_of_append hf htop hb
    exact ⟨more, rfl, (List.forall_mem_cons.1 hl).2, hdrop [_] more 0 rfl⟩
  | elseClosed hk hm hml ht htop =>
    obtain ⟨more, rfl, hrest⟩ := Frames.cons_of_append hf hml hb
    obtain ⟨more, rfl, rfl⟩ := Frames.cons_of_append hrest.symm htop hb
    exact ⟨more, rfl, (List.forall_mem_cons.1 (List.forall_mem_cons.1 hl).2).2,
      hdrop [_, _] more 0 rfl⟩
  | loopClosed hk htop =>
    obtain ⟨more, rfl, rfl⟩ := Frames.cons_of_append hf htop hb
    exact ⟨more, rfl, (List.forall_mem_cons.1 hl).2, hdrop [_] more 0 rfl⟩
  | loopAgain => exact absurd rfl ha

namespace Host
variable {κ : Type} {host : Host κ} {resume : Nat} {s s' : RenderState κ}

/-- An `each` that starts over has one item less. -/
theorem of_closeEach_again (h : closeEach token level s = (.ok resolution, s'))
    (ha : resolution.action = .again) :
    ∃ top rest item items, s.frames = top :: rest ∧ top.level = level ∧
      top.items = some (item :: items) ∧ s'.frames = { top with items := some items } :: rest := by
  unfold closeEach at h
  split at h
  · cases h
  · next top rest hf =>
    split at h
    · split at h
      · next htop =>
        split at h
        · split at h
          · next item frame hnext =>
            cases h
            unfold Frame.next? at hnext
            split at hnext
            · next hitems =>
              cases hnext
              exact ⟨top, rest, _, _, hf, htop, hitems, rfl⟩
            · cases hnext
          · cases h
            cases ha
        · cases h
          cases ha
      · cases h
    · cases h

/-- Where no `while` is rendered, only an `each` starts over. -/
theorem KeepsOn.exists_item (hc : host.KeepsOn)
    (h : host.interpret token level resume s = (.ok resolution, s'))
    (ha : resolution.action = .again) (hw : s.frames.NoWhile) :
    ∃ top rest item items, s.frames = top :: rest ∧ top.level = level ∧
      top.items = some (item :: items) ∧ s'.frames = { top with items := some items } :: rest := by
  obtain ⟨top, rest, _, hf, hk, _, htruthy, _⟩ := hc.of_again h ha
  generalize hkind : token.kind = kind at hk
  generalize htop : top.kind = opening at hk
  cases hk with
  | whileLoop =>
    rw [hw top (hf ▸ List.mem_cons_self) htop] at htruthy
    cases htruthy
  | eachLoop =>
    have hclose : token.directive = .eachClose := Token.Directive.eq_of_kind hkind rfl
    unfold interpret at h
    rw [hclose] at h
    exact of_closeEach_again h ha

/-- A loop over items that starts over changes its block so that less can come of it. -/
theorem KeepsOn.descends_again (hc : host.KeepsOn)
    (h : host.interpret token level resume s = (.ok resolution, s'))
    (ha : resolution.action = .again) (hw : s.frames.NoWhile) (hf : s.frames = own ++ below)
    (hl : ∀ frame ∈ own, frame.level = level) (hb : ∀ frame ∈ below, frame.level < level)
    (hs : (⟨depth, ahead, 0⟩ :: (own.prospects depth total ++ around)).Pairwise Less) :
    ∃ own' : Frames, s'.frames = own' ++ below ∧ (∀ frame ∈ own', frame.level = level) ∧
      ∀ offset, s'.frames.head?.bind (·.resume) = some offset →
        Descends (⟨depth, total - offset, 0⟩ :: (own'.prospects depth total ++ around))
          (⟨depth, ahead, 0⟩ :: (own.prospects depth total ++ around)) := by
  obtain ⟨top, rest, item, items, hf', htop, hitems, hs'⟩ := hc.exists_item h ha hw
  obtain ⟨more, rfl, rfl⟩ := Frames.cons_of_append (hf.symm.trans hf') htop hb
  refine ⟨{ top with items := some items } :: more, hs',
    List.forall_mem_cons.2 ⟨htop, (List.forall_mem_cons.1 hl).2⟩, fun offset ho => ?_⟩
  have ho : top.resume = some offset := by
    rw [hs'] at ho
    exact ho
  have hbefore : Frames.prospects depth total (top :: more) =
      ⟨depth, total - offset, items.length + 2⟩ :: Frames.prospects depth total more := by
    refine List.filterMap_cons_some ?_
    unfold Frame.prospect?
    rw [ho, hitems]
    rfl
  have hafter : Frames.prospects depth total ({ top with items := some items } :: more) =
      ⟨depth, total - offset, items.length + 1⟩ :: Frames.prospects depth total more := by
    refine List.filterMap_cons_some ?_
    unfold Frame.prospect?
    dsimp only
    rw [ho]
  rw [hbefore] at hs ⊢
  rw [hafter]
  -- The loop has one round less; the cursor is at its beginning, further in.
  have hround : Less ⟨depth, total - offset, items.length + 1⟩
      ⟨depth, total - offset, items.length + 2⟩ := .rounds rfl rfl (Nat.lt_succ_self _)
  have hdescends := descends_of_less [] (List.pairwise_cons.1 hs).2 hround
  exact (hdescends.of_cons _).cons (.rounds rfl rfl (Nat.succ_pos _))

/-- The block of a `while` is rendered if its condition holds. -/
theorem decide_of_whileOpen {condition : Token.Condition}
    (h : host.interpret token level resume s = (.ok resolution, s'))
    (hd : token.directive = .whileOpen condition) (hs : s.frames.suppressed = false) :
    ∃ truthy, host.decide token.id s.vars condition = .ok truthy ∧
      s'.frames = { token, truthy, live := true, level, resume := some resume } :: s.frames := by
  unfold interpret at h
  rw [hd] at h
  dsimp only at h
  rw [hs, if_neg Bool.false_ne_true] at h
  unfold openConditional at h
  split at h
  · next truthy hdecide =>
    cases h
    exact ⟨truthy, hdecide, rfl⟩
  · cases h

/-- A `while` is rendered only if its token says so, where output is not withheld. -/
theorem noWhile_of_interpret (h : host.interpret token level resume s = (.ok resolution, s'))
    (hw : s.frames.NoWhile)
    (hn : ∀ condition, token.directive = .whileOpen condition → s.frames.suppressed = false →
      host.decide token.id s.vars condition ≠ .ok true) : s'.frames.NoWhile := by
  have hstep := frameStep_of_interpret h
  generalize hf : s.frames = frames at hstep hw
  generalize hf' : s'.frames = frames' at hstep ⊢
  cases hstep with
  | written => exact hw
  | defined => exact hw
  | skipped => exact List.forall_mem_cons.2 ⟨fun _ => rfl, hw⟩
  | ifOpened truthy hs hk =>
    refine List.forall_mem_cons.2 ⟨fun hkind => ?_, hw⟩
    cases hk.symm.trans hkind
  | whileOpened truthy hs hk =>
    refine List.forall_mem_cons.2 ⟨fun _ => ?_, hw⟩
    obtain ⟨condition, hd⟩ := Token.Directive.exists_of_kind_whileOpen hk
    obtain ⟨truthy', hdecide, hframes⟩ := decide_of_whileOpen h hd (hf ▸ hs)
    obtain ⟨hframe, _⟩ := List.cons.inj (hf'.symm.trans hframes)
    have htruthy : truthy = truthy' := congrArg Frame.truthy hframe
    have hno := hn condition hd (hf ▸ hs)
    rw [hdecide, ← htruthy] at hno
    cases truthy with
    | true => exact absurd rfl hno
    | false => rfl
  | eachEmpty hs hk => exact List.forall_mem_cons.2 ⟨fun _ => rfl, hw⟩
  | eachOpened items hs hk =>
    refine List.forall_mem_cons.2 ⟨fun hkind => ?_, hw⟩
    cases hk.symm.trans hkind
  | elseMarked hk =>
    refine List.forall_mem_cons.2 ⟨fun hkind => ?_, hw⟩
    cases hk.symm.trans hkind
  | ifClosed => exact (List.forall_mem_cons.1 hw).2
  | elseClosed => exact (List.forall_mem_cons.1 (List.forall_mem_cons.1 hw).2).2
  | loopClosed => exact (List.forall_mem_cons.1 hw).2
  | loopAgain =>
    obtain ⟨htop, hmore⟩ := List.forall_mem_cons.1 hw
    exact List.forall_mem_cons.2 ⟨htop, hmore⟩

end Host

end

end Stencil
