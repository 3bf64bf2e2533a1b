import Stencil.Proofs.Joining
import Stencil.Proofs.Resident

/-! The end of a template.

Wherever a rendering goes on in its template, it goes on behind a token that lies ahead of a place where
it went on before; a loop takes it back to no other (`Rendering.Places`). So the tokens that it comes
upon are those that are found from the front of the template on, and where it comes to the end, the
search for a left delimiter has matched what is pending in the template
(`Rendering.matched_of_finished`). -/
namespace Stencil

theorem TextScan.found_of_pass {scan : TextScan} {text : List Char} {cursor : Nat} {found : Bool}
    (h : (scan.pass text none cursor).result = .ok found) :
    (scan.scan (text.drop cursor)).found = found ∧ (found = true →
      (scan.pass text none cursor).cursor = cursor + (scan.scan (text.drop cursor)).consumed) := by
  unfold pass at h ⊢
  dsimp only at h ⊢
  split at h
  · next hf =>
    cases h
    rw [if_pos hf]
    exact ⟨hf, fun _ => rfl⟩
  · next hf =>
    cases h
    exact ⟨Bool.eq_false_iff.2 hf, nofun⟩

theorem CloseScan.found_of_pass {scan : CloseScan} {text raw : List Char} {cursor : Nat}
    (h : (scan.pass text none cursor).result = .ok (some raw)) :
    (scan.scan (text.drop cursor)).found = true ∧
      (scan.pass text none cursor).cursor = cursor + (scan.scan (text.drop cursor)).consumed := by
  unfold pass at h ⊢
  dsimp only at h ⊢
  split at h
  · next hf =>
    rw [if_pos hf]
    exact ⟨hf, rfl⟩
  · cases h

namespace Token.Grammar
variable {g : Grammar} {text : List Char}

/-- Behind the first token of a text, the same is pending as in front of it. -/
theorem pending_of_found (h : ((TextScan.plain g.left).scan text).found = true)
    (hc : ((CloseScan.start g.left g.right).scan
      (text.drop ((TextScan.plain g.left).scan text).consumed)).found = true) :
    g.pending text =
      g.pending ((text.drop ((TextScan.plain g.left).scan text).consumed).drop
        ((CloseScan.start g.left g.right).scan
          (text.drop ((TextScan.plain g.left).scan text).consumed)).consumed) := by
  conv_lhs => rw [pending]
  dsimp only
  rw [dif_pos h, if_pos hc]

/-- Where no token begins, it is what the search has matched. -/
theorem pending_of_not_found (h : ((TextScan.plain g.left).scan text).found = false) :
    g.pending text = ((TextScan.plain g.left).scan text).scan.left.matched := by
  rw [pending]
  dsimp only
  rw [dif_neg (Bool.eq_false_iff.1 h)]

end Token.Grammar

namespace Host
variable {κ : Type} {host : Host κ} {text raw : List Char} {cursor : Nat}

/-- Behind a token that lies ahead, the same is pending as in front of it. -/
theorem pending_of_look (vars : Variables)
    (h : (host.look 0 none text none cursor).result = .ok (some raw)) :
    (host.grammar vars).pending (text.drop (host.look 0 none text none cursor).cursor) =
      (host.grammar vars).pending (text.drop cursor) := by
  obtain ⟨stop, hp, hc, hr⟩ := exists_of_look h
  obtain ⟨hfound, hstop⟩ := TextScan.found_of_pass hp
  obtain ⟨hclosed, hend⟩ := CloseScan.found_of_pass hr
  rw [(look_of_token none hp hc hr).2, hend]
  rw [hstop rfl] at hc
  subst hc
  rw [← List.drop_drop] at hclosed
  rw [← List.drop_drop, ← List.drop_drop]
  exact (Token.Grammar.pending_of_found (g := host.grammar vars) hfound hclosed).symm

/-- Where no token begins any more, the search has matched what is pending. -/
theorem pending_of_pass (vars : Variables)
    (h : ((Rendering.textScan host 0).pass text none cursor).result = .ok false) :
    ((Rendering.textScan host 0).scan (text.drop cursor)).scan.left.matched =
      (host.grammar vars).pending (text.drop cursor) := by
  obtain ⟨hfound, _⟩ := TextScan.found_of_pass h
  exact (Token.Grammar.pending_of_not_found (g := host.grammar vars) hfound).symm

end Host

namespace Rendering
variable {κ σ : Type}

/-- `P` holds of the places of the template from which a rendering goes on: of the one where it stands,
and of those where the bodies of its open loops begin. -/
structure Places (P : Nat → Prop) (r : Rendering κ σ) : Prop where
  cursor : P r.outermost.window.cursor
  resume : ∀ frame ∈ r.state.frames.ofTemplate, ∀ offset, frame.resume = some offset → P offset

variable [CharSource σ] [FaithfulSource σ] {host : Host κ} {g : Token.Grammar} {text : List Char}
  {r r' r'' : Rendering κ σ} {P : Nat → Prop}

/-- What holds behind every token that lies ahead of a place where it holds, holds wherever a rendering
goes on. -/
theorem Places.step (h : r.Places P) (ht : r.Tracked host g text) (hl : Leveled r.passages)
    (hP : ∀ cursor raw, (host.look 0 none text none cursor).result = .ok (some raw) → P cursor →
      P (host.look 0 none text none cursor).cursor)
    (hs : r.step host = .running r'') : r''.Places P := by
  by_cases ho : r.outer = []
  · obtain ⟨hreads, hlevel⟩ := ht.reads hl ho
    have hzero : r.passage.level = 0 := by
      rw [hl.1, ho]
      rfl
    have hcursor : P r.passage.window.cursor := by
      have := h.cursor
      rwa [outermost, ho] at this
    have hresume : ∀ frame ∈ r.state.frames, ∀ offset, frame.resume = some offset → P offset := by
      have := h.resume
      rwa [Frames.ofTemplate_eq_self hlevel] at this
    obtain ⟨raw, r', token, hm, _, _, hall, hadvances⟩ := exists_advances ht hl ho hs
    obtain ⟨hlook, hplace⟩ := look_of_meet hreads.tracks.shows hzero hm
    have hbehind : P r'.passage.window.cursor := hplace ▸ hP _ raw hlook hcursor
    cases hadvances with
    | @again frame below items offset hf hf' hoffset hw =>
      rw [hf] at hresume
      refine ⟨?_, ?_⟩
      · rw [hw]
        exact hresume frame List.mem_cons_self offset hoffset
      · rw [Frames.ofTemplate_eq_self hall, hf']
        intro frame' hm' offset' ho'
        rcases List.mem_cons.1 hm' with rfl | hm'
        · exact hresume frame List.mem_cons_self offset' ho'
        · exact hresume frame' (List.mem_cons_of_mem _ hm') offset' ho'
    | onward ha hf hw =>
      refine ⟨?_, ?_⟩
      · rw [hw, follow_cursor]
        exact hbehind
      · rw [Frames.ofTemplate_eq_self hall]
        intro frame hm' offset hoffset
        rcases Frames.suffix_of_frameStep hf ha with hsuffix | ⟨top, hcons, htop⟩
        · exact hresume frame (hsuffix.subset hm') offset hoffset
        · rw [hcons] at hm'
          rcases List.mem_cons.1 hm' with rfl | hm'
          · rw [htop offset hoffset]
            exact hbehind
          · exact hresume frame hm' offset hoffset
  · obtain ⟨hout, hframes⟩ := outermost_of_nested hl ho hs
    exact ⟨hout ▸ h.cursor, hframes ▸ h.resume⟩

theorem Places.run (h : r.Places P) (ht : r.Tracked host g text) (hl : Leveled r.passages)
    (hP : ∀ cursor raw, (host.look 0 none text none cursor).result = .ok (some raw) → P cursor →
      P (host.look 0 none text none cursor).cursor)
    {steps : Nat} (hr : r.run host steps = .running r') :
    r'.Places P ∧ r'.Tracked host g text ∧ Leveled r'.passages := by
  induction steps generalizing r' with
  | zero =>
    cases hr
    exact ⟨h, ht, hl⟩
  | succ steps ih =>
    obtain ⟨r₁, hr₁, hs⟩ := run_succ_running.1 hr
    obtain ⟨h₁, ht₁, hl₁⟩ := ih hr₁
    have htracked := ht₁.step
    rw [hs] at htracked
    exact ⟨h₁.step ht₁ hl₁ hP hs, htracked, leveled_step hl₁ hs⟩

/-- A template ends where no token begins any more. -/
theorem pass_of_ending (h : r.passage.window.Shows text) (hl : r.passage.level = 0)
    (hm : r.meet host = .ending r') :
    ((textScan host 0).pass text none r.passage.window.cursor).result = .ok false := by
  have hflush : (textScan host 0).Flushable := TextScan.flushable_plain host.left
  have hcomes := comesUpon_meet host r
  rw [hm] at hcomes
  cases hcomes with
  | ending ht =>
    rw [hl] at ht
    exact (pass_of_passText h hflush ht).2.1

/-- **What the search has matched at the end of a template is what is pending there**, wherever it set
out from. -/
theorem matched_of_finished {w : Window σ} {begun : RenderState κ} {pool : Pool} {sink : Sink}
    {steps : Nat} (hw : w.Shows text) (hg : w.growth = 0) (hc : w.cursor = 0)
    (hf : begun.frames = [])
    (hr : (Rendering.start w 0 begun pool sink).run host steps = .running r)
    (hs : r.step host = .finished r'') :
    ((textScan host 0).scan (text.drop r.passage.window.cursor)).scan.left.matched =
      (host.grammar begun.vars).pending text := by
  have htracked : (Rendering.start w 0 begun pool sink).Tracked host (host.grammar begun.vars) text :=
    tracked_start pool sink hw hg (by rw [hf]; nofun)
  have hplaces : (Rendering.start w 0 begun pool sink).Places fun cursor =>
      (host.grammar begun.vars).pending (text.drop cursor) =
        (host.grammar begun.vars).pending text := by
    refine ⟨?_, ?_⟩
    · show (host.grammar begun.vars).pending (text.drop w.cursor) = _
      rw [hc, List.drop_zero]
    · show ∀ frame ∈ begun.frames.ofTemplate, _
      rw [hf]
      nofun
  obtain ⟨hplaces, htracked, hleveled⟩ := hplaces.run htracked ⟨rfl, trivial⟩
    (fun cursor raw hlook hcursor => (Host.pending_of_look begun.vars hlook).trans hcursor) hr
  obtain ⟨hm, ho, _⟩ := step_finished hs
  have hread := readsTo_meet host r
  rw [hm] at hread
  have houter : r.outer = [] := hread.outer_eq.symm.trans ho
  obtain ⟨hreads, _⟩ := htracked.reads hleveled houter
  have hzero : r.passage.level = 0 := by
    rw [hleveled.1, houter]
    rfl
  have hcursor := hplaces.cursor
  rw [outermost, houter] at hcursor
  have hpass := pass_of_ending hreads.tracks.shows hzero hm
  exact (Host.pending_of_pass begun.vars hpass).trans hcursor

end Rendering

end Stencil
