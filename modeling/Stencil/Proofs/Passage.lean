import Stencil.Render.Progress
import Stencil.Proofs.Frame
import Stencil.Proofs.Scan
import Stencil.Proofs.Window

/-! What a rendering comes upon in its passage.

A step reads on to the next token and acts on it (`step_eq`, `act_cases`, `carryOut_cases`); what every
step keeps true every run does (`run_invariant`). Reading on moves the window and writes
literal text and changes nothing else (`GoesOnTo`); it fails only where the source or the sink fails
or the passage ends inside a token; and behind a token stands what was read as one (`Meets`). -/
namespace Stencil

/-- The text up to behind some of the characters at the cursor. -/
theorem take_add_of_isPrefix {text piece : List Char} {cursor count : Nat}
    (hp : piece <+: text.drop cursor) (hc : count ≤ piece.length) :
    text.take (cursor + count) = text.take cursor ++ piece.take count := by
  obtain ⟨t, ht⟩ := hp
  rw [List.take_add, ← ht, List.take_append_of_le_length hc]

/-- A sink fails in one way only. -/
theorem Sink.io_of_write {sink sink' : Sink} {text : List Char} {e : RenderError}
    (h : sink.write text = (.error e, sink')) : ∃ message, e = .io message := by
  unfold Sink.write at h
  split at h
  · cases h
  · dsimp only at h
    split at h
    · cases h
    · cases h
      exact ⟨_, rfl⟩

/-- So does a window. -/
theorem Window.io_of_span {σ : Type} [CharSource σ] {w w' : Window σ} {pool pool' : Pool}
    {e : RenderError} (h : w.span pool = (.error e, w', pool')) : ∃ message, e = .io message := by
  fun_induction Window.span w pool with
  | case1 => cases h
  | case2 w pool hr w₁ pool₁ hf ih => exact ih h
  | case3 => cases h
  | case4 w pool hr e' w₁ pool₁ hf =>
    cases h
    rcases fill_cases hf with ⟨_, he, _⟩ | ⟨_, _, _, he, _⟩ | ⟨_, _, _, _, _, _, _, _, _, hcase⟩
    · cases he
    · cases he
    · rcases hcase with ⟨m, _, he, _⟩ | ⟨_, he, _⟩ | ⟨_, _, _, he, _⟩
      · cases he
        exact ⟨m, rfl⟩
      · cases he
      · cases he

/-- A window on all of a text takes no buffers. -/
theorem Window.pool_of_span {σ : Type} [CharSource σ] {w w' : Window σ} {pool pool' : Pool}
    {result : Except RenderError (List Char)} (hf : w.isFixed = true)
    (h : w.span pool = (result, w', pool')) : pool' = pool := by
  rw [Window.span] at h
  split at h
  · cases h
    rfl
  · have hfill : w.fill pool = (.ok false, w, pool) := by
      unfold Window.fill
      cases hs : w.supply with
      | fixed => rfl
      | streaming source size ended =>
        rw [Window.isFixed, hs] at hf
        cases hf
    split at h
    · next he =>
      rw [hfill] at he
      cases he
    · next he =>
      rw [hfill] at he
      cases he
      cases h
      rfl
    · next he =>
      rw [hfill] at he
      cases he

theorem Window.isFixed_of_seek {σ : Type} {w w' : Window σ} {offset : Nat}
    (h : w.seek offset = .ok w') : w'.isFixed = w.isFixed := by
  unfold Window.seek at h
  split at h
  · cases h
    rfl
  · cases h

namespace Rendering
variable {κ σ : Type} [CharSource σ]

/-! ### Steps taken apart -/

/-- What a rendering comes upon when it reads on. -/
inductive Encounter (κ σ : Type) where
  /-- A token with that text; the rendering is behind it. -/
  | token (raw : List Char) (r : Rendering κ σ)
  | ending (r : Rendering κ σ)
  | failure (error : RenderError) (r : Rendering κ σ)

def Encounter.rendering : Encounter κ σ → Rendering κ σ
  | token _ r => r
  | ending r => r
  | failure _ r => r

/-- Read on to the next token of the passage. -/
def meet (host : Host κ) (r : Rendering κ σ) : Encounter κ σ :=
  match r.passText (textScan host r.passage.level) with
  | (.error e, r) => .failure e r
  | (.ok false, r) => .ending r
  | (.ok true, r) =>
    let offset := r.passage.window.cursor - host.left.length
    match r.readToken (.start host.left host.right) with
    | (.error e, r) => .failure e r
    | (.ok none, r) => .failure (.unterminatedToken offset r.passage.within) r
    | (.ok (some raw), r) => .token raw r

/-- What a rendering comes upon, by how it got there: it passed over literal text to a left delimiter,
and read a token behind that. -/
inductive ComesUpon (host : Host κ) (r : Rendering κ σ) : Encounter κ σ → Prop
  | textFailed {e : RenderError} {r' : Rendering κ σ}
      (ht : r.passText (textScan host r.passage.level) = (.error e, r')) :
      ComesUpon host r (.failure e r')
  | ending {r' : Rendering κ σ}
      (ht : r.passText (textScan host r.passage.level) = (.ok false, r')) :
      ComesUpon host r (.ending r')
  | tokenFailed {e : RenderError} {r₁ r' : Rendering κ σ}
      (ht : r.passText (textScan host r.passage.level) = (.ok true, r₁))
      (hr : r₁.readToken (.start host.left host.right) = (.error e, r')) :
      ComesUpon host r (.failure e r')
  | unterminated {r₁ r' : Rendering κ σ}
      (ht : r.passText (textScan host r.passage.level) = (.ok true, r₁))
      (hr : r₁.readToken (.start host.left host.right) = (.ok none, r')) :
      ComesUpon host r (.failure
        (.unterminatedToken (r₁.passage.window.cursor - host.left.length) r'.passage.within) r')
  | token {raw : List Char} {r₁ r' : Rendering κ σ}
      (ht : r.passText (textScan host r.passage.level) = (.ok true, r₁))
      (hr : r₁.readToken (.start host.left host.right) = (.ok (some raw), r')) :
      ComesUpon host r (.token raw r')

theorem comesUpon_meet (host : Host κ) (r : Rendering κ σ) : r.ComesUpon host (r.meet host) := by
  unfold meet
  rcases ht : r.passText (textScan host r.passage.level) with ⟨_ | _ | _, r₁⟩
  · exact .textFailed ht
  · exact .ending ht
  · dsimp only
    rcases hr : r₁.readToken (.start host.left host.right) with ⟨_ | _ | raw, r₂⟩
    · exact .tokenFailed ht hr
    · exact .unterminated ht hr
    · exact .token ht hr

/-- A step reads on and acts on what it comes upon. -/
theorem step_eq (host : Host κ) (r : Rendering κ σ) :
    r.step host =
      match r.meet host with
      | .token raw r => act host r raw
      | .ending r => r.leave
      | .failure e r => .failed e r := by
  unfold step meet
  rcases r.passText (textScan host r.passage.level) with ⟨_ | _ | _, r₁⟩
  · rfl
  · rfl
  · dsimp only
    rcases r₁.readToken (.start host.left host.right) with ⟨_ | _ | _, r₂⟩
    · rfl
    · rfl
    · rfl

/-- What asking for characters, passing over them and writing literal text keep true is true behind what
a rendering came upon. -/
theorem meet_invariant {P : Rendering κ σ → Prop} (hspan : ∀ r, P r → P r.span.2)
    (hadvance : ∀ r count, P r → P (r.advance count))
    (hwrite : ∀ r text, P r → P (r.writeLiteral text).2) (host : Host κ) {r : Rendering κ σ}
    (h : P r) : P (r.meet host).rendering := by
  have hspan' : ∀ {r r' result}, P r → r.span = (result, r') → P r' := by
    intro r r' result h hs
    have := hspan r h
    rwa [hs] at this
  have hwrite' : ∀ {r r' text result}, P r → r.writeLiteral text = (result, r') → P r' := by
    intro r r' text result h hw
    have := hwrite r text h
    rwa [hw] at this
  have htext : ∀ scan, P (r.passText scan).2 := by
    intro scan
    fun_induction Rendering.passText scan r with
    | case1 scan r e r₁ hs => exact hspan' h hs
    | case2 scan r r₁ hs e r₂ hw => exact hwrite' (hspan' h hs) hw
    | case3 scan r r₁ hs r₂ hw => exact hwrite' (hspan' h hs) hw
    | case4 scan r c cs r₁ hs scanned r₂ hf e r₃ hw =>
      exact hwrite' (hadvance _ _ (hspan' h hs)) hw
    | case5 scan r c cs r₁ hs scanned r₂ hf r₃ hw => exact hwrite' (hadvance _ _ (hspan' h hs)) hw
    | case6 scan r c cs r₁ hs scanned r₂ hf taken e r₃ hw =>
      exact hwrite' (hadvance _ _ (hspan' h hs)) hw
    | case7 scan r c cs r₁ hs scanned r₂ hf taken r₃ hw ih =>
      exact ih (hwrite' (hadvance _ _ (hspan' h hs)) hw)
  have htoken : ∀ scan (r : Rendering κ σ), P r → P (r.readToken scan).2 := by
    intro scan r h
    fun_induction Rendering.readToken scan r with
    | case1 scan r e r₁ hs => exact hspan' h hs
    | case2 scan r r₁ hs => exact hspan' h hs
    | case3 scan r c cs r₁ hs scanned r₂ hf => exact hadvance _ _ (hspan' h hs)
    | case4 scan r c cs r₁ hs scanned r₂ hf ih => exact ih (hadvance _ _ (hspan' h hs))
  have htext' : ∀ {result r'}, r.passText (textScan host r.passage.level) = (result, r') → P r' := by
    intro result r' ht
    have := htext (textScan host r.passage.level)
    rwa [ht] at this
  have htoken' : ∀ {result r₁ r'}, P r₁ →
      r₁.readToken (.start host.left host.right) = (result, r') → P r' := by
    intro result r₁ r' h hr
    have := htoken (.start host.left host.right) r₁ h
    rwa [hr] at this
  have hcomes := comesUpon_meet host r
  generalize r.meet host = encounter at hcomes ⊢
  cases hcomes with
  | textFailed ht => exact htext' ht
  | ending ht => exact htext' ht
  | tokenFailed ht hr => exact htoken' (htext' ht) hr
  | unterminated ht hr => exact htoken' (htext' ht) hr
  | token ht hr => exact htoken' (htext' ht) hr

/-! ### Acting on a token -/

omit [CharSource σ]

/-- The text that was just read is a token, which is resolved; `state` is carried on. -/
structure Resolves (host : Host κ) (r : Rendering κ σ) (raw : List Char) (token : Token)
    (resolution : Resolution) (state : RenderState κ) : Prop where
  classify : (host.grammar r.counted.vars).classify r.counted.tokens raw = .ok token
  interpret : host.interpret token r.passage.level r.passage.window.cursor r.counted =
    (.ok resolution, state)

/-- A token is acted on by telling the window of it and doing what it was resolved to. -/
theorem act_of_resolves {host : Host κ} {r : Rendering κ σ} {raw : List Char} {token : Token}
    {resolution : Resolution} {state : RenderState κ}
    (h : r.Resolves host raw token resolution state) :
    act host r raw = carryOut host
      (({ r with state } : Rendering κ σ).followLoop token.kind resolution.action) token.id
      resolution := by
  unfold act
  dsimp only
  rw [h.classify]
  dsimp only
  rw [h.interpret]

/-- What is no token is a failure. -/
theorem act_of_classify_error {host : Host κ} {r : Rendering κ σ} {raw : List Char}
    {e : RenderError}
    (h : (host.grammar r.counted.vars).classify r.counted.tokens raw = .error e) :
    act host r raw = .failed e { r with state := r.counted } := by
  unfold act
  dsimp only
  rw [h]

/-- So is a token that cannot be interpreted. -/
theorem act_of_interpret_error {host : Host κ} {r : Rendering κ σ} {raw : List Char}
    {token : Token} {e : RenderError} {state : RenderState κ}
    (hc : (host.grammar r.counted.vars).classify r.counted.tokens raw = .ok token)
    (hi : host.interpret token r.passage.level r.passage.window.cursor r.counted =
      (.error e, state)) : act host r raw = .failed e { r with state } := by
  unfold act
  dsimp only
  rw [hc]
  dsimp only
  rw [hi]

/-- A token is resolved, or there is a failure, which is about the token. -/
theorem act_cases (host : Host κ) (r : Rendering κ σ) (raw : List Char) :
    (∃ token resolution state, r.Resolves host raw token resolution state) ∨
      ∃ e state, act host r raw = .failed e { r with state } ∧ e.namesPlace = false := by
  cases hc : (host.grammar r.counted.vars).classify r.counted.tokens raw with
  | error e =>
    exact .inr ⟨e, r.counted, act_of_classify_error hc, Token.Grammar.namesPlace_of_classify hc⟩
  | ok token =>
    cases hi : host.interpret token r.passage.level r.passage.window.cursor r.counted with
    | mk result state =>
      cases result with
      | ok resolution => exact .inl ⟨token, resolution, state, hc, hi⟩
      | error e =>
        exact .inr ⟨e, state, act_of_interpret_error hc hi, Host.namesPlace_of_interpret hi⟩

/-- A window and the pool after a token was met: open loops have to be kept at hand. -/
def follow (w : Window σ) (kind : Token.Kind) (action : Action) (pool : Pool) : Window σ × Pool :=
  if kind.isLoop then (w.openLoop, pool)
  else if kind.isLoopClose ∧ action ≠ .again then w.closeLoop pool
  else (w, pool)

/-- Following the loops changes nothing but the window and the pool. -/
theorem followLoop_eq (r : Rendering κ σ) (kind : Token.Kind) (action : Action) :
    r.followLoop kind action =
      { r.withWindow (follow r.passage.window kind action r.pool).1 with
        pool := (follow r.passage.window kind action r.pool).2 } := by
  unfold followLoop follow
  split
  · rfl
  · split
    · rfl
    · rfl

theorem isFixed_follow (w : Window σ) (kind : Token.Kind) (action : Action) (pool : Pool) :
    (follow w kind action pool).1.isFixed = w.isFixed := by
  have hclose : (w.closeLoop pool).1.isFixed = w.isFixed := by
    unfold Window.closeLoop
    split <;> rfl
  unfold follow
  split
  · rfl
  · split
    · exact hclose
    · rfl

theorem follow_cursor (w : Window σ) (kind : Token.Kind) (action : Action) (pool : Pool) :
    (follow w kind action pool).1.cursor = w.cursor := by
  unfold follow Window.closeLoop
  split
  · rfl
  · split
    · split <;> rfl
    · rfl

theorem shows_follow [CharSource σ] [FaithfulSource σ] {text : List Char} {w : Window σ}
    (h : w.Shows text) (kind : Token.Kind) (action : Action) (pool : Pool) :
    (follow w kind action pool).1.Shows text := by
  unfold follow
  split
  · exact h.openLoop
  · split
    · exact h.closeLoop pool
    · exact h

/-- Most tokens do not concern the window. -/
theorem follow_of_other {w : Window σ} {kind : Token.Kind} {action : Action} {pool : Pool}
    (ho : kind.isLoop = false) (hc : kind.isLoopClose = true → action = .again) :
    follow w kind action pool = (w, pool) := by
  unfold follow
  rw [ho, if_neg Bool.false_ne_true, if_neg]
  rintro ⟨h, hn⟩
  exact hn (hc h)

/-- Unless a loop starts over, something may be written, or a passage begins. -/
theorem carryOut_cases (host : Host κ) (r : Rendering κ σ) (id : Nat) (resolution : Resolution) :
    (∃ sink, carryOut host r id resolution = .running { r with sink }) ∨
      (∃ value, resolution = ⟨.replace, some value⟩ ∧
        carryOut host r id resolution = .running (r.enter value.toList id)) ∨
      (∃ e r', carryOut host r id resolution = .failed e r' ∧ e.namesPlace = false ∧
        r'.state = r.state) ∨
      (resolution.action = .again ∧ carryOut host r id resolution = r.replay id) := by
  have hemit : ∀ text, (∃ sink, r.emit text = .running { r with sink }) ∨
      ∃ e r', r.emit text = .failed e r' ∧ e.namesPlace = false ∧ r'.state = r.state := by
    intro text
    unfold emit Rendering.write
    cases hw : r.sink.write text with
    | mk result sink =>
      cases result with
      | ok _ => exact .inl ⟨sink, rfl⟩
      | error e =>
        obtain ⟨message, rfl⟩ := Sink.io_of_write hw
        exact .inr ⟨_, _, rfl, rfl, rfl⟩
  obtain ⟨action, value⟩ := resolution
  unfold carryOut
  cases action with
  | again => exact .inr (.inr (.inr ⟨rfl, rfl⟩))
  | ignore => exact .inl ⟨r.sink, rfl⟩
  | mark =>
    rcases hemit (marker host id (value.getD "")) with h | h
    · exact .inl h
    · exact .inr (.inr (.inl h))
  | replace =>
    cases value with
    | none => exact .inl ⟨r.sink, rfl⟩
    | some value =>
      dsimp only
      unfold expand
      split
      · split
        · exact .inr (.inr (.inl ⟨_, _, rfl, rfl, rfl⟩))
        · exact .inr (.inl ⟨value, rfl, rfl⟩)
      · rcases hemit value.toList with h | h
        · exact .inl h
        · exact .inr (.inr (.inl h))

/-- A passage is left when no block of its own is open. -/
theorem leave_cases (r : Rendering κ σ) :
    (∃ e, r.leave = .failed e r ∧ e.namesPlace = false) ∨
      (r.state.frames.length ≤ r.passage.opened ∧
        ((r.outer = [] ∧ r.leave = .finished r) ∨
          ∃ passage outer, r.outer = passage :: outer ∧
            r.leave = .running { r with passage, outer })) := by
  have hdone : (r.outer = [] ∧ leave.done r = .finished r) ∨
      ∃ passage outer, r.outer = passage :: outer ∧
        leave.done r = .running { r with passage, outer } := by
    unfold leave.done
    cases ho : r.outer with
    | nil => exact .inl ⟨rfl, rfl⟩
    | cons passage outer => exact .inr ⟨passage, outer, rfl, rfl⟩
  unfold leave
  cases hf : r.state.frames with
  | nil => exact .inr ⟨Nat.zero_le _, hdone⟩
  | cons top below =>
    dsimp only
    split
    · exact .inl ⟨_, rfl, rfl⟩
    · next hn => exact .inr ⟨Nat.le_of_not_lt hn, hdone⟩

/-! ### Runs -/

/-- What every step keeps true of how far a rendering has come is true of every run. -/
theorem run_invariant [CharSource σ] {host : Host κ} {P : Progress κ σ → Prop}
    (hstep : ∀ r, P (.running r) → P (r.step host)) {r : Rendering κ σ} (h : P (.running r))
    (steps : Nat) : P (r.run host steps) := by
  induction steps generalizing r with
  | zero => exact h
  | succ steps ih =>
    have hs := hstep r h
    unfold run
    cases hr : r.step host with
    | running r' =>
      rw [hr] at hs
      exact ih hs
    | finished r' =>
      rw [hr] at hs
      exact hs
    | failed e r' =>
      rw [hr] at hs
      exact hs

/-- The last of some steps is taken where the others lead to. -/
theorem run_succ_last [CharSource σ] (host : Host κ) (r : Rendering κ σ) (steps : Nat) :
    r.run host (steps + 1) =
      match r.run host steps with
      | .running r => r.step host
      | progress => progress := by
  induction steps generalizing r with
  | zero =>
    unfold run
    cases hs : r.step host with
    | running r' => exact hs.symm
    | finished r' => exact hs.symm
    | failed e r' => exact hs.symm
  | succ steps ih =>
    rw [run, run]
    cases r.step host with
    | running r' => exact ih r'
    | finished r' => rfl
    | failed e r' => rfl

/-! ### Reading on -/

variable [CharSource σ] [FaithfulSource σ] {text : List Char} {host : Host κ}

/-- The rendering after it read on: its window goes on with the text, and only the pool and the sink
may have changed besides. -/
structure GoesOnTo (text : List Char) (r r' : Rendering κ σ) : Prop where
  window : r.passage.window.Continues text r'.passage.window
  passage : r'.passage = { r.passage with window := r'.passage.window }
  outer : r'.outer = r.outer
  state : r'.state = r.state
  /-- Where all of the text is there, no buffers are taken. -/
  pool : r.passage.window.isFixed = true → r'.pool = r.pool

namespace GoesOnTo

theorem trans {r r' r'' : Rendering κ σ} (h : r.GoesOnTo text r') (h' : r'.GoesOnTo text r'') :
    r.GoesOnTo text r'' where
  window := h.window.trans h'.window
  passage := by rw [h'.passage, h.passage]
  outer := h'.outer.trans h.outer
  state := h'.state.trans h.state
  pool hf := (h'.pool (h.window.isFixed.trans hf)).trans (h.pool hf)

theorem advance {r r' : Rendering κ σ} (h : r.GoesOnTo text r') {count : Nat}
    (hc : r'.passage.window.cursor + count ≤ r'.passage.window.residentStop) :
    r.GoesOnTo text (r'.advance count) where
  window := h.window.advance hc
  passage := by
    show { r'.passage with window := r'.passage.window.advance count } = _
    rw [h.passage]
    rfl
  outer := h.outer
  state := h.state
  pool := h.pool

end GoesOnTo

omit [CharSource σ] [FaithfulSource σ] in
theorem writeLiteral_eq {r r' : Rendering κ σ} {cs : List Char} {result : Except RenderError Unit}
    (hw : r.writeLiteral cs = (result, r')) :
    ∃ sink, r' = { r with sink } ∧ ∀ e, result = .error e → ∃ message, e = .io message := by
  unfold writeLiteral at hw
  split at hw
  · cases hw
    exact ⟨r.sink, rfl, nofun⟩
  · cases hw
    refine ⟨_, rfl, fun e he => ?_⟩
    exact Sink.io_of_write (Prod.ext he rfl)

theorem goesOnTo_writeLiteral {r r' r'' : Rendering κ σ} (h : r.GoesOnTo text r') {cs : List Char}
    {result : Except RenderError Unit} (hw : r'.writeLiteral cs = (result, r'')) :
    r.GoesOnTo text r'' := by
  obtain ⟨sink, rfl, _⟩ := writeLiteral_eq hw
  exact ⟨h.window, h.passage, h.outer, h.state, h.pool⟩

omit [FaithfulSource σ] in
theorem of_span {r r' : Rendering κ σ} {result : Except RenderError (List Char)}
    (hs : r.span = (result, r')) :
    ∃ window pool, r.passage.window.span r.pool = (result, window, pool) ∧
      r' = { r.withWindow window with pool } := by
  unfold Rendering.span at hs
  cases hs
  exact ⟨_, _, rfl, rfl⟩

theorem goesOnTo_span {r r' : Rendering κ σ} (h : r.passage.window.Shows text)
    {result : Except RenderError (List Char)} (hs : r.span = (result, r')) :
    r.GoesOnTo text r' ∧ r'.passage.window.cursor = r.passage.window.cursor ∧
      (∀ e, result = .error e → ∃ message, e = .io message) ∧
      ∀ cs, result = .ok cs → cs <+: text.drop r'.passage.window.cursor ∧
        r'.passage.window.cursor + cs.length ≤ r'.passage.window.residentStop := by
  obtain ⟨window, pool, hw, rfl⟩ := of_span hs
  obtain ⟨hread, hcs⟩ := h.span hw
  refine ⟨⟨hread.toContinues, rfl, rfl, rfl, fun hf => Window.pool_of_span hf hw⟩, hread.cursor,
    fun e he => ?_, fun cs he => ?_⟩
  · exact Window.io_of_span (he ▸ hw)
  · obtain ⟨hp, hle, _⟩ := hcs cs he
    rw [show ({ r.withWindow window with pool } : Rendering κ σ).passage.window.cursor =
      r.passage.window.cursor from hread.cursor]
    exact ⟨hp, hle⟩

/-- Behind some of the characters that it was given a rendering goes on as well. -/
theorem goesOnTo_advance {r r' : Rendering κ σ} {cs : List Char} {count : Nat}
    (h : r.passage.window.Shows text) (hs : r.span = (.ok cs, r')) (hc : count ≤ cs.length) :
    r.GoesOnTo text (r'.advance count) ∧ r'.passage.window.cursor = r.passage.window.cursor ∧
      cs <+: text.drop r'.passage.window.cursor := by
  obtain ⟨hgoes, hcursor, -, hcs⟩ := goesOnTo_span h hs
  obtain ⟨hpre, hle⟩ := hcs _ rfl
  exact ⟨hgoes.advance (Nat.le_trans (Nat.add_le_add_left hc _) hle), hcursor, hpre⟩

/-- Passing over literal text stops behind a left delimiter or at the end of the passage. -/
theorem goesOnTo_passText {left : List Char} {scan : TextScan} {r r' : Rendering κ σ}
    {result : Except RenderError Bool} (h : r.passage.window.Shows text)
    (hs : scan.Follows left (text.take r.passage.window.cursor))
    (hp : r.passText scan = (result, r')) :
    r.GoesOnTo text r' ∧ (∀ e, result = .error e → ∃ message, e = .io message) ∧
      (result = .ok true → left <:+ text.take r'.passage.window.cursor) := by
  fun_induction Rendering.passText scan r with
  | case1 scan r e r₁ hspan =>
    cases hp
    obtain ⟨hgoes, _, hio, _⟩ := goesOnTo_span h hspan
    exact ⟨hgoes, fun e he => hio e (by cases he; rfl), nofun⟩
  | case2 scan r r₁ hspan e r₂ hw =>
    cases hp
    obtain ⟨hgoes, _, _, _⟩ := goesOnTo_span h hspan
    obtain ⟨_, _, hio⟩ := writeLiteral_eq hw
    exact ⟨goesOnTo_writeLiteral hgoes hw, fun e he => hio e (by cases he; rfl), nofun⟩
  | case3 scan r r₁ hspan r₂ hw =>
    cases hp
    obtain ⟨hgoes, _, _, _⟩ := goesOnTo_span h hspan
    exact ⟨goesOnTo_writeLiteral hgoes hw, nofun, nofun⟩
  | case4 scan r c cs r₁ hspan scanned r₂ hfound e r₃ hw =>
    cases hp
    obtain ⟨hgoes, -, -⟩ := goesOnTo_advance h hspan (consumed_le_length scan (c :: cs))
    obtain ⟨_, _, hio⟩ := writeLiteral_eq hw
    exact ⟨goesOnTo_writeLiteral hgoes hw, fun e he => hio e (by cases he; rfl), nofun⟩
  | case5 scan r c cs r₁ hspan scanned r₂ hfound r₃ hw =>
    cases hp
    have hused : scanned.consumed ≤ (c :: cs).length := consumed_le_length scan (c :: cs)
    obtain ⟨hgoes, hcursor, hpre⟩ := goesOnTo_advance h hspan hused
    obtain ⟨sink, rfl, _⟩ := writeLiteral_eq hw
    refine ⟨goesOnTo_writeLiteral hgoes hw, nofun, fun _ => ?_⟩
    show left <:+ text.take (r₁.passage.window.cursor + scanned.consumed)
    rw [take_add_of_isPrefix hpre hused, hcursor]
    exact (hs.scan (c :: cs)).2 hfound
  | case6 scan r c cs r₁ hspan scanned r₂ hfound taken e r₃ hw =>
    cases hp
    obtain ⟨hgoes, -, -⟩ := goesOnTo_advance h hspan (consumed_le_length scan (c :: cs))
    obtain ⟨_, _, hio⟩ := writeLiteral_eq hw
    exact ⟨goesOnTo_writeLiteral hgoes hw, fun e he => hio e (by cases he; rfl), nofun⟩
  | case7 scan r c cs r₁ hspan scanned r₂ hfound taken r₃ hw ih =>
    have hfound : scanned.found = false := Bool.eq_false_iff.2 hfound
    have hused : scanned.consumed = (c :: cs).length := consumed_of_not_found scan (c :: cs) hfound
    obtain ⟨hgoes, hcursor, hpre⟩ := goesOnTo_advance h hspan (Nat.le_of_eq hused)
    have hgoes := goesOnTo_writeLiteral hgoes hw
    obtain ⟨sink, rfl, _⟩ := writeLiteral_eq hw
    have hfollows : taken.2.Follows left
        (text.take (r₁.passage.window.cursor + scanned.consumed)) := by
      rw [take_add_of_isPrefix hpre (Nat.le_of_eq hused), hcursor, hused, List.take_length]
      exact (hs.scan (c :: cs)).1 hfound
    obtain ⟨hgoes', hio, hleft⟩ := ih hgoes.window.shows hfollows hp
    exact ⟨hgoes.trans hgoes', hio, hleft⟩

/-- Reading a token stops behind the right delimiter that closes it. -/
theorem goesOnTo_readToken {right : List Char} (front fed : List Char) {scan : CloseScan}
    {r r' : Rendering κ σ} {result : Except RenderError (Option (List Char))}
    (h : r.passage.window.Shows text) (ht : text.take r.passage.window.cursor = front ++ fed)
    (hs : scan.Follows right fed)
    (hp : r.readToken scan = (result, r')) :
    r.GoesOnTo text r' ∧ (∀ e, result = .error e → ∃ message, e = .io message) ∧
      ∀ raw, result = .ok (some raw) →
        text.take r'.passage.window.cursor = front ++ (raw ++ right) := by
  fun_induction Rendering.readToken scan r generalizing fed with
  | case1 scan r e r₁ hspan =>
    cases hp
    obtain ⟨hgoes, _, hio, _⟩ := goesOnTo_span h hspan
    exact ⟨hgoes, fun e he => hio e (by cases he; rfl), nofun⟩
  | case2 scan r r₁ hspan =>
    cases hp
    exact ⟨(goesOnTo_span h hspan).1, nofun, nofun⟩
  | case3 scan r c cs r₁ hspan scanned r₂ =>
    rename_i hfound
    obtain ⟨rfl, rfl⟩ := Prod.mk.inj hp
    have hused : scanned.consumed ≤ (c :: cs).length := consumed_le_length scan (c :: cs)
    obtain ⟨hgoes, hcursor, hpre⟩ := goesOnTo_advance h hspan hused
    refine ⟨hgoes, nofun, fun raw he => ?_⟩
    cases he
    show text.take (r₁.passage.window.cursor + scanned.consumed) = _
    rw [take_add_of_isPrefix hpre hused, hcursor, ht, List.append_assoc]
    exact congrArg (front ++ ·) ((hs.scan (c :: cs)).2 hfound).symm
  | case4 scan r c cs r₁ hspan scanned r₂ hfound =>
    rename_i ih
    have hfound : scanned.found = false := Bool.eq_false_iff.2 hfound
    have hused : scanned.consumed = (c :: cs).length := consumed_of_not_found scan (c :: cs) hfound
    obtain ⟨hgoes, hcursor, hpre⟩ := goesOnTo_advance h hspan (Nat.le_of_eq hused)
    have ht' : text.take (r₁.passage.window.cursor + scanned.consumed) =
        front ++ (fed ++ (c :: cs)) := by
      rw [take_add_of_isPrefix hpre (Nat.le_of_eq hused), hcursor, hused, List.take_length, ht,
        List.append_assoc]
    obtain ⟨hgoes', hio, hraw⟩ := ih _ hgoes.window.shows ht' ((hs.scan (c :: cs)).1 hfound) hp
    exact ⟨hgoes.trans hgoes', hio, hraw⟩

omit [CharSource σ] [FaithfulSource σ] in
/-- Whatever was read before, the search for a token begins anew. -/
theorem follows_textScan (host : Host κ) (level : Nat) (fed : List Char) :
    (textScan host level).Follows host.left fed := by
  unfold textScan
  split
  · exact TextScan.follows_plain ..
  · exact TextScan.follows_escaping ..

/-- What reading on leads to. -/
inductive Meets (host : Host κ) (text : List Char) (r : Rendering κ σ) : Encounter κ σ → Prop
  /-- Behind a token stands its text between the delimiters. -/
  | token {raw front : List Char} {r' : Rendering κ σ} (hr : r.GoesOnTo text r')
      (ht : text.take r'.passage.window.cursor = front ++ host.left ++ (raw ++ host.right)) :
      Meets host text r (.token raw r')
  | ending {r' : Rendering κ σ} (hr : r.GoesOnTo text r') : Meets host text r (.ending r')
  /-- A source or a sink fails. -/
  | io {message : String} {r' : Rendering κ σ} (hr : r.GoesOnTo text r') :
      Meets host text r (.failure (.io message) r')
  /-- The passage ends inside a token. -/
  | unterminated {offset : Nat} {within : Option Nat} {r' : Rendering κ σ}
      (hr : r.GoesOnTo text r') :
      Meets host text r (.failure (.unterminatedToken offset within) r')

theorem meets_meet {r : Rendering κ σ} (h : r.passage.window.Shows text) :
    r.Meets host text (r.meet host) := by
  have hfollows := follows_textScan host r.passage.level (text.take r.passage.window.cursor)
  have htext : ∀ {result r'}, r.passText (textScan host r.passage.level) = (result, r') →
      r.GoesOnTo text r' ∧ (∀ e, result = .error e → ∃ message, e = .io message) ∧
        (result = .ok true → host.left <:+ text.take r'.passage.window.cursor) :=
    goesOnTo_passText h hfollows
  -- In front of a token stands the delimiter at which the literal text ended.
  have htoken : ∀ {result r₁ r'}, r.passText (textScan host r.passage.level) = (.ok true, r₁) →
      r₁.readToken (.start host.left host.right) = (result, r') →
      r.GoesOnTo text r' ∧ (∀ e, result = .error e → ∃ message, e = .io message) ∧
        ∃ front, ∀ raw, result = .ok (some raw) →
          text.take r'.passage.window.cursor = front ++ host.left ++ (raw ++ host.right) := by
    intro result r₁ r' ht hr
    obtain ⟨hgoes, -, hleft⟩ := htext ht
    obtain ⟨front, hfront⟩ := hleft rfl
    obtain ⟨hgoes', hio, hraw⟩ := goesOnTo_readToken (front ++ host.left) []
      hgoes.window.shows (by rw [List.append_nil, hfront]) (CloseScan.follows_start ..) hr
    exact ⟨hgoes.trans hgoes', hio, front, hraw⟩
  have hcomes := comesUpon_meet host r
  generalize r.meet host = encounter at hcomes ⊢
  cases hcomes with
  | textFailed ht =>
    obtain ⟨hgoes, hio, -⟩ := htext ht
    obtain ⟨message, rfl⟩ := hio _ rfl
    exact .io hgoes
  | ending ht => exact .ending (htext ht).1
  | tokenFailed ht hr =>
    obtain ⟨hgoes, hio, -⟩ := htoken ht hr
    obtain ⟨message, rfl⟩ := hio _ rfl
    exact .io hgoes
  | unterminated ht hr => exact .unterminated (htoken ht hr).1
  | token ht hr =>
    obtain ⟨hgoes, -, front, hraw⟩ := htoken ht hr
    exact .token hgoes (hraw _ rfl)

end Rendering

end Stencil
