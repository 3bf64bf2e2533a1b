import Stencil.Proofs.Delivery
import Stencil.Proofs.Pieces

/-! Texts that are read a window at a time.

Over a text, every segment of a window is filled as far as the text goes, so segments begin at multiples of
the size of the window and end there or with the text (`Window.Even`). If none of these places is one where
a delimiter is cut off from the backslash in front of it, rendering the text in a window comes to the same
as rendering it whole, also at levels where backslashes count (`Rendered.seen_run_eq_of_spared`); if one
is, it may not (`Rendered.written_of_cut_escape`). -/
namespace Stencil

/-! ### Windows on texts -/

/-- The segment begins at a multiple of the size, and ends at one or with the text. -/
structure Segment.Even (text : List Char) (size : Nat) (s : Segment) : Prop where
  start : size ∣ s.start
  stop : size ∣ s.stop ∨ s.stop = text.length

/-- Filled as far as the text goes, a segment ends at one or with the text. -/
theorem Segment.even_of_fill {text rest : List Char} {size : Nat} {s : Segment} (hs : size ∣ s.start)
    (hl : s.text.length ≤ size) (hp : s.stop ≤ text.length) (hr : rest = text.drop s.stop) :
    ({ s with text := s.text ++ rest.take (size - s.text.length) } : Segment).Even text size := by
  refine ⟨hs, ?_⟩
  have hstop : s.stop = s.start + s.text.length := rfl
  rw [Segment.stop, List.length_append, List.length_take, hr, List.length_drop]
  dsimp only
  by_cases hfits : size - s.text.length ≤ text.length - s.stop
  · refine .inl ?_
    rw [Nat.min_eq_left hfits, Nat.add_sub_cancel' hl]
    exact Nat.dvd_add hs (Nat.dvd_refl size)
  · refine .inr ?_
    omega

namespace Window

/-- A window of a size on a text, with such segments. -/
structure Even (text : List Char) (size : Nat) (w : Window TextSource) : Prop where
  supply : ∃ source ended, w.supply = .streaming source size ended
  segments : ∀ s ∈ w.segments, s.Even text size

theorem even_streaming (text : List Char) (size : Nat) :
    (streaming ⟨text⟩ size : Window TextSource).Even text (max size 1) :=
  ⟨⟨_, _, rfl⟩, nofun⟩

namespace Even
variable {text : List Char} {size : Nat} {w w' : Window TextSource} {pool pool' : Pool}

/-- Room is made in a segment that begins at a multiple of the size. -/
theorem makeRoom (h : w.Even text size) (hw : w.Shows text) (hc : w.cursor = w.residentStop)
    {before : List Segment} {last : Segment} (hm : w.makeRoom size pool = (before, last, pool')) :
    (∀ s ∈ before, s.Even text size) ∧ size ∣ last.start := by
  obtain ⟨source, ended, hs⟩ := h.supply
  obtain ⟨_, _, _, hsize⟩ := (supplied_iff hs).1 hw.supplied
  unfold Window.makeRoom at hm
  split at hm
  · next hl =>
    cases hm
    refine ⟨nofun, ?_⟩
    show size ∣ w.cursor
    rw [hw.fresh (List.getLast?_eq_none_iff.1 hl)]
    exact Nat.dvd_zero size
  · next s hl =>
    obtain ⟨front, hsegments⟩ := List.getLast?_eq_some_iff.1 hl
    have hmem : s ∈ w.segments := by rw [hsegments]; simp
    split at hm
    · next hfull =>
      -- The segment in front of a new one is full.
      have hcursor : size ∣ w.cursor := by
        have hlength : s.text.length = size := (of_decide_eq_true hfull).trans (hsize s hmem).1
        rw [hc, residentStop_concat w hsegments, Segment.stop, hlength]
        exact Nat.dvd_add (h.segments s hmem).start (Nat.dvd_refl size)
      split at hm
      · cases hm
        exact ⟨nofun, hcursor⟩
      · cases hm
        exact ⟨h.segments, hcursor⟩
    · cases hm
      exact ⟨fun s hs => h.segments s (List.dropLast_subset _ hs), (h.segments _ hmem).start⟩

/-- A segment is filled as far as the text goes. -/
theorem fill (h : w.Even text size) (hw : w.Shows text) (hc : w.cursor = w.residentStop)
    {result : Except RenderError Bool} (hf : w.fill pool = (result, w', pool')) :
    w'.Even text size := by
  rcases fill_cases hf with ⟨_, _, rfl⟩ | ⟨_, _, _, _, rfl⟩ |
    ⟨source, size', before, last, answer, source', hs, hm, hr, hcase⟩
  · exact h
  · exact h
  · obtain ⟨_, _, hs'⟩ := h.supply
    cases hs.symm.trans hs'
    obtain ⟨hrest, _⟩ := (supplied_iff hs).1 hw.supplied
    have hrest : source.rest = text.drop w.residentStop := hrest
    obtain ⟨hbefore, hstart⟩ := h.makeRoom hw hc hm
    obtain ⟨_, hstop, hsize, hlt⟩ := hw.makeRoom hc hs hm
    rw [hsize] at hr
    cases hr
    have hend : ({ last with
        text := last.text ++ source.rest.take (size - last.text.length) } : Segment).Even text size := by
      have hplace : last.stop = w.residentStop := hstop.trans hc
      exact Segment.even_of_fill hstart (Nat.le_of_lt hlt) (hplace ▸ hw.stop_le) (hplace ▸ hrest)
    have hfilled : ∀ ended cs, source.rest.take (size - last.text.length) = cs →
        (w.filled before last ⟨source.rest.drop (size - last.text.length)⟩ size ended cs).Even text
          size := by
      rintro ended _ rfl
      refine ⟨⟨_, _, rfl⟩, fun s hm => ?_⟩
      rcases List.mem_append.1 hm with hm | hm
      · exact hbefore s hm
      · rw [List.mem_singleton.1 hm]
        exact hend
    rcases hcase with ⟨e, he, _⟩ | ⟨he, _, rfl⟩ | ⟨c, cs, he, _, rfl⟩
    · cases he
    · exact hfilled true [] (Except.ok.inj he)
    · exact hfilled false (c :: cs) (Except.ok.inj he)

theorem span (h : w.Even text size) (hw : w.Shows text) : (w.span pool).2.1.Even text size := by
  fun_induction Window.span w pool with
  | case1 => exact h
  | case2 w pool hr w₁ pool₁ hf ih =>
    have hc := hw.of_rest?_eq_none hr
    exact ih (h.fill hw hc hf) (hw.fill hc hf).1.shows
  | case3 w pool hr w₁ pool₁ hf => exact h.fill hw (hw.of_rest?_eq_none hr) hf
  | case4 w pool hr e w₁ pool₁ hf => exact h.fill hw (hw.of_rest?_eq_none hr) hf

/-- What the window gives reaches to the end of a segment. -/
theorem stop_of_span (h : w.Even text size) (hw : w.Shows text) {cs : List Char}
    (hs : (w.span pool).1 = .ok cs) (hn : cs ≠ []) :
    size ∣ w.cursor + cs.length ∨ w.cursor + cs.length = text.length := by
  fun_induction Window.span w pool with
  | case1 w pool cs' hr =>
    cases hs
    obtain ⟨s, hfind, rfl⟩ := Option.map_eq_some_iff.1 hr
    have hm : s ∈ w.segments := by simpa using List.mem_of_find?_eq_some hfind
    have hholds := List.find?_some hfind
    simp only [Segment.holds, Bool.and_eq_true, decide_eq_true_eq] at hholds
    have hstop : w.cursor + (s.text.drop (w.cursor - s.start)).length = s.stop := by
      have : s.stop = s.start + s.text.length := rfl
      rw [List.length_drop]
      omega
    rw [hstop]
    exact (h.segments s hm).stop
  | case2 w pool hr w₁ pool₁ hf ih =>
    have hc := hw.of_rest?_eq_none hr
    have hread := (hw.fill hc hf).1
    have hstop := ih (h.fill hw hc hf) hread.shows hs
    rwa [hread.cursor] at hstop
  | case3 =>
    cases hs
    exact absurd rfl hn
  | case4 => cases hs

theorem follow (h : w.Even text size) (kind : Token.Kind) (action : Action) (pool : Pool) :
    (Rendering.follow w kind action pool).1.Even text size := by
  refine ⟨(Rendering.follow_supply ..).symm ▸ h.supply, fun s hm => h.segments s ?_⟩
  revert hm
  unfold Rendering.follow closeLoop
  split
  · exact id
  · split
    · split
      · exact id
      · exact fun hm => (dropBehind_suffix w.cursor w.segments).1.subset hm
      · exact id
    · exact id

/-- Where no multiple of the size falls between a backslash and the end of a delimiter, the windows do
not cut one off. -/
theorem cuts {left : List Char} (hs : ∀ place, size ∣ place → Spared left text place) (level : Nat) :
    Cuts left level text (Even text size) where
  span h hw := h.span hw
  withCursor h _ := ⟨h.supply, h.segments⟩
  follow kind action pool h := h.follow kind action pool
  spared _ w pool cs h hw hspan hn := by
    rcases h.stop_of_span hw hspan hn with hdvd | hend
    · exact hs _ hdvd
    · rw [hend]
      exact spared_length left text

end Even

end Window

/-! ### Rendering texts -/

namespace Rendered
variable {κ : Type}

/-- **Where a text is cut does not matter**, unless a delimiter is cut off from a backslash in front of it:
if no multiple of the size of the window falls between a backslash and the end of a left delimiter right
behind it, a rendering that begins at any level, into a sink without a limit, writes the same, leaves
the same variables and callback memory, and has the same result over a window as over the whole text,
after the same number of steps. -/
theorem seen_run_eq_of_spared (host : Host κ) (hc : host.KeepsOn) (level : Nat) (text : List Char)
    (vars : Variables) (memory : κ) {sink : Sink} (hroom : sink.room = none) {size : Nat}
    (hs : ∀ place, max size 1 ∣ place → Spared host.left text place) (pool pool' : Pool)
    (steps : Nat) :
    let seen := fun window pool =>
      (ofProgress? ((Rendering.start (window : Window TextSource) level { vars, memory } pool sink).run
        host steps)).map seen
    seen (.streaming ⟨text⟩ size) pool = seen (.fixed text) pool' := by
  let t : Subject TextSource TextSource :=
    ⟨level, text, none, Window.Even text (max size 1), Window.Whole text⟩
  have ht : t.Sound host.left :=
    ⟨Window.Even.cuts hs level, Window.cuts_whole host.left level text⟩
  exact seen_of_sound ht (.inr hc) vars memory pool pool' (Window.tells_streaming (⟨text⟩ : TextSource) size)
    (Window.tells_fixed text) (Window.even_streaming text size) (Window.whole_fixed text) rfl rfl rfl rfl
    hroom steps

/-- The windows end behind a delimiter with a backslash, and in the middle of one without. -/
theorem seen_run_eq_of_spared_escape :
    let host : Host Unit := {}
    let text := "a\\{{b}}c{{b}}".toList
    let seen := fun (window : Window TextSource) pool =>
      (ofProgress? ((Rendering.start window 1
        { vars := .ofList [("b", .str "B")], memory := () } pool {}).run host 3)).map seen
    host.KeepsOn ∧ (∀ place, max 5 1 ∣ place → Spared host.left text place) ∧
      seen (.streaming ⟨text⟩ 5) ⟨[], 0, 0⟩ = seen (.fixed text) ⟨[], 0, 0⟩ := by
  intro host text seen
  have hc : host.KeepsOn := nofun
  have hspared : ∀ place, max 5 1 ∣ place → Spared host.left text place := by
    rintro _ ⟨n, rfl⟩
    refine spared_iff.2 fun k hk hescaped => ?_
    have hone : k = 1 := by
      revert k
      decide
    have hlength : host.left.length = 2 := by decide
    show 5 * n ≤ k ∨ k + host.left.length < 5 * n
    omega
  exact ⟨hc, hspared, seen_run_eq_of_spared host hc 1 text _ () rfl hspared _ _ 3⟩

/-- A window of two characters ends behind the backslash, and what is to be literal is rendered. -/
theorem written_of_cut_escape :
    let host : Host Unit := {}
    let written := fun (window : Window TextSource) =>
      (ofProgress? ((Rendering.start window 1
        { vars := .ofList [("b", .str "B")], memory := () } ⟨[], 0, 0⟩ {}).run host 3)).map
          fun rendered => rendered.sink.text
    host.callback = none ∧ written (.streaming ⟨"a\\{{b}}".toList⟩ 2) = some "a\\B" ∧
      written (.fixed "a\\{{b}}".toList) = some "a{{b}}" := by
  refine ⟨rfl, ?_, ?_⟩ <;> decide +kernel

end Rendered

end Stencil
