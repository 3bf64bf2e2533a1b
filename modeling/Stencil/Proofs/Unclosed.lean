import Stencil.Proofs.Closing
import Stencil.Proofs.Resident

/-! Tokens that do not end.

A rendering that comes to the end of a text inside a token fails with the place where the token begins,
and with the token whose value the text is, if it is not the one that the rendering began with. Both are
right (`Rendering.unclosed_of_run`): in whatever pieces a source gives the text and however often loops
go back in it, a left delimiter stands at that place and nothing behind it ends the token
(`Rendering.unclosed_of_meet`); and each passage that a rendering is in is the value of a token that it
came upon, or the text that it began with (`Rendering.Held`). -/
namespace Stencil

/-- A left delimiter stands at an offset of a text, and the search for the end of the token that begins
with it comes to none. -/
def Host.Unclosed {κ : Type} (host : Host κ) (text : List Char) (offset : Nat) : Prop :=
  host.left <+: text.drop offset ∧
    ((CloseScan.start host.left host.right).scan
      (text.drop (offset + host.left.length))).found = false

/-- What ends behind some characters of a text begins so many in front of that. -/
theorem isPrefix_drop_of_isSuffix_take {part text : List Char} {count : Nat}
    (h : part <:+ text.take count) (hc : count ≤ text.length) :
    part <+: text.drop (count - part.length) ∧ count - part.length + part.length = count := by
  obtain ⟨front, hfront⟩ := h
  have hlength := congrArg List.length hfront
  rw [List.length_append, List.length_take_of_le hc] at hlength
  have hdrop : text.drop front.length = part ++ text.drop count := by
    conv_lhs => rw [← List.take_append_drop count text, ← hfront, List.append_assoc, List.drop_left]
  have hoffset : count - part.length = front.length := by omega
  rw [hoffset, hdrop]
  exact ⟨List.prefix_append .., hlength⟩

namespace Rendering
variable {κ σ : Type} [CharSource σ] [FaithfulSource σ] {host : Host κ} {text : List Char}

/-! ### Where the token begins -/

/-- A text in which a token does not end is read to its end. -/
theorem not_found_of_readToken {scan : CloseScan} {r r' : Rendering κ σ}
    (h : r.passage.window.Shows text) (hr : r.readToken scan = (.ok none, r')) :
    (scan.scan (text.drop r.passage.window.cursor)).found = false := by
  fun_induction Rendering.readToken scan r with
  | case1 => cases hr
  | case2 scan r r₁ hspan =>
    obtain ⟨window, pool, hw, -⟩ := of_span hspan
    obtain ⟨-, -, hend⟩ := (h.span hw).2 [] rfl
    rw [hend rfl, List.drop_length]
    rfl
  | case3 => cases hr
  | case4 scan r c cs r₁ hspan scanned r₂ hfound ih =>
    have hfound : scanned.found = false := Bool.eq_false_iff.2 hfound
    have hused : scanned.consumed = (c :: cs).length := consumed_of_not_found scan (c :: cs) hfound
    obtain ⟨hgoes, hcursor, rest, hrest⟩ := goesOnTo_advance h hspan (Nat.le_of_eq hused)
    have hread := ih hgoes.window.shows hr
    have hdrop : text.drop (r₁.passage.window.cursor + scanned.consumed) = rest := by
      rw [hused, ← List.drop_drop, ← hrest, List.drop_left]
    have hscan : (scanned.scan.scan rest).found = false := hdrop ▸ hread
    rw [← hcursor, ← hrest, CloseScan.scan_append hfound]
    exact hscan

/-- **Where a text ends inside a token, the token begins at the offset that the failure names.** -/
theorem unclosed_of_meet {r r' : Rendering κ σ} {offset : Nat} {within : Option Nat}
    (h : r.passage.window.Shows text)
    (hm : r.meet host = .failure (.unterminatedToken offset within) r') :
    host.Unclosed text offset ∧ within = r.passage.within := by
  have hcomes := comesUpon_meet host r
  rw [hm] at hcomes
  cases hcomes with
  | textFailed ht =>
    obtain ⟨-, hio, -⟩ := goesOnTo_passText h (follows_textScan ..) ht
    obtain ⟨message, he⟩ := hio _ rfl
    cases he
  | tokenFailed ht hr =>
    obtain ⟨hgoes, -, -⟩ := goesOnTo_passText h (follows_textScan ..) ht
    obtain ⟨-, hio, -⟩ := goesOnTo_readToken _ [] hgoes.window.shows (List.append_nil _).symm
      (CloseScan.follows_start ..) hr
    obtain ⟨message, he⟩ := hio _ rfl
    cases he
  | unterminated ht hr =>
    obtain ⟨hgoes, -, hleft⟩ := goesOnTo_passText h (follows_textScan ..) ht
    obtain ⟨hgoes', -, -⟩ := goesOnTo_readToken _ [] hgoes.window.shows (List.append_nil _).symm
      (CloseScan.follows_start ..) hr
    have hcursor := Nat.le_trans hgoes.window.shows.le_stop hgoes.window.shows.stop_le
    obtain ⟨hdelimiter, hbehind⟩ := isPrefix_drop_of_isSuffix_take (hleft rfl) hcursor
    refine ⟨⟨hdelimiter, ?_⟩, ?_⟩
    · rw [hbehind]
      exact not_found_of_readToken hgoes.window.shows hr
    · rw [hgoes'.passage, hgoes.passage]

/-! ### Whose value a passage is -/

/-- A step in which the rendering comes upon the token `id` and begins a passage on its value. -/
structure Enters (host : Host κ) (r r' : Rendering κ σ) (id : Nat) (value : List Char) : Prop where
  step : r.step host = .running r'
  exists_token : ∃ raw behind token state v, r.meet host = .token raw behind ∧
    behind.Resolves host raw token ⟨.replace, some v⟩ state ∧ token.id = id ∧ v.toList = value
  /-- All of the value is there. -/
  window : r'.passage.window = .fixed value
  within : r'.passage.within = some id

/-- After some steps from `start` the rendering is in the value of the token `id`, with the passages
`outer` around it: it has entered the value and has not left it since. -/
def InValue (host : Host κ) (start : Rendering κ σ) (steps id : Nat) (value : List Char)
    (outer : List (Passage σ)) : Prop :=
  ∃ before r r', before < steps ∧ start.run host before = .running r ∧
    r.Enters host r' id value ∧ r'.outer = outer ∧
    ∀ n, before < n → n ≤ steps → outer <:+ (start.run host n).rendering.outer

/-- What a passage with `outer` around it is on: the value of the token that it is within, or else the
text that the rendering began with. -/
def Began (host : Host κ) (text : List Char) (start : Rendering κ σ) (steps : Nat) :
    (within : Option Nat) → List Char → (outer : List (Passage σ)) → Prop
  | none, value, outer => value = text ∧ outer = []
  | some id, value, outer => start.InValue host steps id value outer

/-- The window of each of some passages shows what the passage is on. -/
def Held (host : Host κ) (text : List Char) (start : Rendering κ σ) (steps : Nat)
    (passages : List (Passage σ)) : Prop :=
  ∀ passage outer, passage :: outer <:+ passages → ∃ value, passage.window.Shows value ∧
    start.Began host text steps passage.within value outer

variable {start r r'' : Rendering κ σ} {steps : Nat}

omit [FaithfulSource σ] in
/-- A passage that is not left goes on to be what it is. -/
theorem Began.later {within : Option Nat} {value : List Char} {outer : List (Passage σ)}
    {later : Nat} (h : start.Began host text steps within value outer)
    (hs : ∀ n, steps < n → n ≤ later → outer <:+ (start.run host n).rendering.outer)
    (hle : steps ≤ later) : start.Began host text later within value outer := by
  cases within with
  | none => exact h
  | some id =>
    obtain ⟨before, r, r', hlt, hr, henters, houter, hin⟩ := h
    refine ⟨before, r, r', Nat.lt_of_lt_of_le hlt hle, hr, henters, houter, fun n hb hn => ?_⟩
    rcases Nat.lt_or_ge steps n with hlate | hearly
    · exact hs n hlate hn
    · exact hin n hb hearly

theorem held_start {w : Window σ} {level : Nat} {state : RenderState κ} (pool : Pool) (sink : Sink)
    (hw : w.Shows text) :
    (Rendering.start w level state pool sink).Held host text 0
      (Rendering.start w level state pool sink).passages := by
  intro passage outer hsuffix
  rcases List.suffix_cons_iff.1 hsuffix with heq | hnil
  · cases heq
    exact ⟨text, hw, rfl, rfl⟩
  · cases List.suffix_nil.1 hnil

/-- Wherever the window of a passage moves to, the passage is on what it was. -/
theorem Held.moved {r' : Rendering κ σ} (h : start.Held host text steps r.passages)
    (hshows : ∀ value, r.passage.window.Shows value → r'.passage.window.Shows value)
    (hwithin : r'.passage.within = r.passage.within) (houter : r'.outer = r.outer) :
    start.Held host text steps r'.passages := by
  intro p outer hp
  rw [passages, houter] at hp
  rcases List.suffix_cons_iff.1 hp with heq | hbehind
  · cases heq
    obtain ⟨value, hw, hbegan⟩ := h r.passage r.outer List.suffix_rfl
    rw [hwithin]
    exact ⟨value, hshows value hw, hbegan⟩
  · exact h p outer (hbehind.trans (List.suffix_cons ..))

/-- A passage is left only when those in front of it are. -/
theorem Held.later {passages : List (Passage σ)} (h : start.Held host text steps passages)
    (hin : passages.tail <:+ (start.run host (steps + 1)).rendering.outer) :
    start.Held host text (steps + 1) passages := by
  intro p outer hp
  obtain ⟨value, hw, hbegan⟩ := h p outer hp
  refine ⟨value, hw, hbegan.later (fun n hlt hle => ?_) (Nat.le_succ _)⟩
  obtain rfl : n = steps + 1 := by omega
  obtain ⟨front, rfl⟩ := hp
  refine List.IsSuffix.trans ?_ hin
  cases front with
  | nil => exact List.suffix_rfl
  | cons first front => exact (List.suffix_cons ..).trans (List.suffix_append ..)

/-- Reading on to a token and following the loops leave every passage on what it was. -/
theorem Held.resolved {r' : Rendering κ σ} {raw : List Char} (state : RenderState κ)
    (kind : Token.Kind) (action : Action) (h : start.Held host text steps r.passages)
    (hm : r.meet host = .token raw r') :
    start.Held host text steps
      (({ r' with state } : Rendering κ σ).followLoop kind action).passages := by
  obtain ⟨value, hshows, hbegan⟩ := h r.passage r.outer List.suffix_rfl
  have hmeets : ∀ value, r.passage.window.Shows value → r.Meets host value (r.meet host) :=
    fun value => meets_meet
  rw [hm] at hmeets
  have hgoes : ∀ value, r.passage.window.Shows value → r.GoesOnTo value r' := by
    intro value hw
    cases hmeets value hw with
    | token hgoes _ => exact hgoes
  have hstay := hgoes value hshows
  rw [followLoop_eq]
  refine h.moved (fun value hw => shows_follow (hgoes value hw).window.shows kind action r'.pool) ?_
    hstay.outer
  show r'.passage.within = r.passage.within
  rw [hstay.passage]

/-- A step moves the window of the passage that is read, begins a passage in front of it, or leaves it:
the others stay what they are. -/
theorem Held.step (h : start.Held host text steps r.passages) (hr : start.run host steps = .running r)
    (hs : r.step host = .running r'') : start.Held host text (steps + 1) r''.passages := by
  have hr'' : start.run host (steps + 1) = .running r'' := run_succ_running.2 ⟨r, hr, hs⟩
  have hlater : ∀ {passages}, start.Held host text steps passages → passages.tail <:+ r''.outer →
      start.Held host text (steps + 1) passages := fun h hin => h.later (by rw [hr'']; exact hin)
  rcases step_running hs with ⟨raw, r', token, resolution, state, hm, hres, hc⟩ |
    ⟨r', passage, outer, hm, ho, rfl⟩
  · have hfollow := h.resolved state token.kind resolution.action hm
    generalize hr₁ : ({ r' with state } : Rendering κ σ).followLoop token.kind resolution.action = r₁
      at hc hfollow
    rcases carryOut_running hc with ⟨sink, rfl⟩ | ⟨v, rfl, rfl⟩ | ⟨-, offset, window, hw, rfl⟩
    · exact hlater hfollow List.suffix_rfl
    · intro p outer hp
      rcases List.suffix_cons_iff.1 hp with heq | hbehind
      · cases heq
        refine ⟨v.toList, Window.shows_fixed _, steps, r, _, Nat.lt_succ_self _, hr,
          ⟨hs, ⟨raw, r', token, state, v, hm, hres, rfl, rfl⟩, rfl, rfl⟩, rfl, fun n hlt hle => ?_⟩
        obtain rfl : n = steps + 1 := by omega
        rw [hr'']
        exact List.suffix_rfl
      · exact hlater hfollow (List.suffix_cons ..) p outer hbehind
    · refine hlater (hfollow.moved ?_ rfl rfl) List.suffix_rfl
      exact fun value hshows => hshows.seek hw
  · have houter : r.outer = passage :: outer := by
      have hreads := readsTo_meet host r
      rw [hm] at hreads
      exact hreads.outer_eq.symm.trans ho
    have hleft : start.Held host text steps (passage :: outer) := by
      rw [← houter]
      exact fun p o hp => h p o (hp.trans (List.suffix_cons ..))
    exact hlater hleft List.suffix_rfl

/-! ### Runs -/

theorem held_of_run {w : Window σ} {level : Nat} {state : RenderState κ} (pool : Pool) (sink : Sink)
    (hw : w.Shows text) (hr : (Rendering.start w level state pool sink).run host steps = .running r) :
    (Rendering.start w level state pool sink).Held host text steps r.passages := by
  induction steps generalizing r with
  | zero =>
    cases hr
    exact held_start pool sink hw
  | succ steps ih =>
    obtain ⟨r', hr', hs⟩ := run_succ_running.1 hr
    exact (ih hr').step hr' hs

omit [FaithfulSource σ] in
/-- It is where a rendering reads on that a token does not end. -/
theorem meet_of_unterminated {offset : Nat} {within : Option Nat}
    (h : r.step host = .failed (.unterminatedToken offset within) r'') :
    r.meet host = .failure (.unterminatedToken offset within) r'' := by
  rcases of_failed_at_place rfl h with hm | ⟨_, _, _, _, hreplay⟩
  · exact hm
  · unfold replay at hreplay
    split at hreplay
    · cases hreplay
    · split at hreplay
      · next e hw =>
        unfold Window.seek at hw
        split at hw <;> cases hw
        cases hreplay
      · cases hreplay

/-- **An unterminated token is where the failure says.** If a rendering fails for a token that does not
end, then in the text that the failure is about a left delimiter stands at its offset, and the search for
the end of the token that begins with it comes to none. That is the text which the rendering began with,
if the failure names no token, and no passage is around it; else it is the value of the token that the
failure names, which the rendering came upon, began on and has not left. -/
theorem unclosed_of_run {w : Window σ} {level offset : Nat} {state : RenderState κ} {pool : Pool}
    {sink : Sink} {within : Option Nat} (hw : w.Shows text)
    (h : (Rendering.start w level state pool sink).run host steps =
      .failed (.unterminatedToken offset within) r) :
    (within = none → host.Unclosed text offset ∧ r.outer = []) ∧
      ∀ id, within = some id → ∃ value, host.Unclosed value offset ∧
        (Rendering.start w level state pool sink).InValue host steps id value r.outer := by
  obtain ⟨last, r', hlt, hrun, hstep, hsince⟩ := exists_of_run_ended h nofun
  have hm := meet_of_unterminated hstep
  have houter : r.outer = r'.outer := by
    have hreads := readsTo_meet host r'
    rw [hm] at hreads
    exact hreads.outer_eq
  obtain ⟨value, hshows, hbegan⟩ :=
    held_of_run pool sink hw hrun r'.passage r'.outer List.suffix_rfl
  obtain ⟨hunclosed, hwithin⟩ := unclosed_of_meet hshows hm
  have hnow : Began host text _ steps r'.passage.within value r'.outer :=
    hbegan.later (fun n hn hle => by rw [hsince n hn hle, ← houter]; exact List.suffix_rfl)
      (Nat.le_of_lt hlt)
  rw [← hwithin, ← houter] at hnow
  refine ⟨?_, ?_⟩
  · rintro rfl
    obtain ⟨rfl, hnone⟩ := hnow
    exact ⟨hunclosed, hnone⟩
  · rintro id rfl
    exact ⟨value, hunclosed, hnow⟩

/-- A value that ends inside a token, of a token that is longer than the window on the template. -/
theorem unclosed_of_run_inside_value :
    let host : Host Unit := {}
    let w : Window FlakySource := .streaming ⟨"{{a}}.".toList, [.ok 3, .ok 0, .ok 7]⟩ 4
    let state : RenderState Unit := { vars := .ofList [("a", .str "x\x7b\x7bb")], memory := () }
    let start := Rendering.start w 0 state ⟨[], 1, 0⟩ {}
    w.Shows "{{a}}.".toList ∧
      ∃ r, start.run host 2 = .failed (.unterminatedToken 1 (some 1)) r ∧
        ∃ value, host.Unclosed value 1 ∧ start.InValue host 2 1 value r.outer := by
  intro host w state start
  have hw : w.Shows "{{a}}.".toList :=
    Window.shows_streaming (⟨"{{a}}.".toList, [.ok 3, .ok 0, .ok 7]⟩ : FlakySource) 4
  have hfails : (start.run host 2).failure? = some (.unterminatedToken 1 (some 1)) := by
    decide +kernel
  obtain ⟨r, hr⟩ := Progress.exists_of_failure? hfails
  exact ⟨hw, r, hr, (unclosed_of_run hw hr).2 1 rfl⟩

end Rendering

end Stencil
