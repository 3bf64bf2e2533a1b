import Stencil.Render.Interpret

/-! What a token does to the open blocks.

A token that does not fail leaves the blocks as they are, opens one, turns to the other part of one,
closes one, or starts the innermost over; `FrameStep` says under which conditions, and
`frameStep_of_interpret` that there is nothing else. A token that fails says that it is malformed, that
an expression in it fails, or that its block is not open; that a loop has lost its place is for a
rendering to find out, as it is that the text ends inside a token (`namesPlace_of_interpret`). -/
namespace Stencil

/-- Whether an error says that a loop could not go back to its beginning. -/
def RenderError.losesPlace : RenderError → Bool
  | .position .. => true
  | .token _ .noResume => true
  | _ => false

/-- Whether an error is about a place in the text that a rendering came to: a loop cannot go back from
it, or a token does not end. -/
def RenderError.namesPlace : RenderError → Bool
  | .unterminatedToken .. => true
  | e => e.losesPlace

theorem RenderError.losesPlace_of_namesPlace {e : RenderError} (h : e.namesPlace = false) :
    e.losesPlace = false := by
  cases e with
  | unterminatedToken => rfl
  | _ => exact h

/-- Whether tokens of a kind stand for something to be written. -/
def Token.Kind.isWritten : Token.Kind → Bool
  | value | empty => true
  | _ => false

def Token.Kind.isOpening : Token.Kind → Bool
  | ifOpen | whileOpen | eachOpen => true
  | _ => false

/-- The name that a directive defines, or binds to one item after another. -/
def Token.Directive.bound? : Token.Directive → Option String
  | define name _ => some name
  | eachOpen name _ => some name
  | _ => none

/-- Whether a token defines a name or binds it to one item after another. -/
def Token.Binds (token : Token) (name : String) : Prop :=
  token.directive.bound? = some name

/-- A loop and the token that closes it. -/
inductive ClosesLoop : Token.Kind → Token.Kind → Prop where
  | whileLoop : ClosesLoop .whileClose .whileOpen
  | eachLoop : ClosesLoop .eachClose .eachOpen

/-- What a token at a level does to the open blocks when it does not fail, and what it is resolved
to; `resume` is the offset behind it. -/
inductive FrameStep (token : Token) (level resume : Nat) : Frames → Resolution → Frames → Prop where
  /-- Values leave them, and are resolved in any way. -/
  | written {frames : Frames} {resolution : Resolution} (hw : token.kind.isWritten = true) :
      FrameStep token level resume frames resolution frames
  /-- Definitions leave them. -/
  | defined {frames : Frames} (hk : token.kind = .define) :
      FrameStep token level resume frames .ignore frames
  /-- In a part that is not rendered a block is opened unseen. -/
  | skipped {frames : Frames} (hs : frames.suppressed = true)
      (hopen : token.kind.isOpening = true) :
      FrameStep token level resume frames .ignore (.skipped token level :: frames)
  | ifOpened {frames : Frames} (truthy : Bool) (hs : frames.suppressed = false)
      (hk : token.kind = .ifOpen) :
      FrameStep token level resume frames .ignore ({ token, truthy, live := true, level } :: frames)
  | whileOpened {frames : Frames} (truthy : Bool) (hs : frames.suppressed = false)
      (hk : token.kind = .whileOpen) :
      FrameStep token level resume frames .ignore
        ({ token, truthy, live := true, level, resume := some resume } :: frames)
  /-- A loop over no items is not rendered. -/
  | eachEmpty {frames : Frames} (hs : frames.suppressed = false) (hk : token.kind = .eachOpen) :
      FrameStep token level resume frames .ignore
        ({ token, truthy := false, live := true, level } :: frames)
  | eachOpened {frames : Frames} (items : List String) (hs : frames.suppressed = false)
      (hk : token.kind = .eachOpen) :
      FrameStep token level resume frames .ignore
        ({ token, truthy := true, live := true, level, resume := some resume, items := some items } ::
          frames)
  /-- The other part of an `if` is rendered if the first one was not but could have been. -/
  | elseMarked {top : Frame} {below : Frames} (hk : token.kind = .elseMark)
      (ht : top.kind = .ifOpen) (hl : top.level = level) :
      FrameStep token level resume (top :: below) .ignore
        ({ token, truthy := top.live && !top.truthy, live := top.live, level } :: top :: below)
  | ifClosed {top : Frame} {below : Frames} (hk : token.kind = .ifClose) (ht : top.kind = .ifOpen)
      (hl : top.level = level) : FrameStep token level resume (top :: below) .ignore below
  /-- An `if` is closed together with its `else`. -/
  | elseClosed {mark top : Frame} {below : Frames} (hk : token.kind = .ifClose)
      (hm : mark.kind = .elseMark) (hml : mark.level = level) (ht : top.kind = .ifOpen)
      (hl : top.level = level) : FrameStep token level resume (mark :: top :: below) .ignore below
  | loopClosed {top : Frame} {below : Frames} (hk : ClosesLoop token.kind top.kind)
      (hl : top.level = level) : FrameStep token level resume (top :: below) .ignore below
  /-- A loop that starts over keeps all but its next item. -/
  | loopAgain {top : Frame} {below : Frames} (items : Option (List String))
      (hk : ClosesLoop token.kind top.kind) (hl : top.level = level) (ht : top.truthy = true)
      (hi : items = top.items ∨ ∃ item rest, top.items = some (item :: rest) ∧ items = some rest) :
      FrameStep token level resume (top :: below) .again ({ top with items } :: below)

theorem ClosesLoop.isLoopClose {close opening : Token.Kind} (h : ClosesLoop close opening) :
    close.isLoopClose = true := by
  cases h <;> rfl

theorem ClosesLoop.isLoop {close opening : Token.Kind} (h : ClosesLoop close opening) :
    opening.isLoop = true := by
  cases h <;> rfl

/-- No token that closes a loop opens one. -/
theorem Token.Kind.isLoop_of_isLoopClose {kind : Token.Kind} (h : kind.isLoopClose = true) :
    kind.isLoop = false := by
  cases kind <;> first | rfl | cases h

/-- Nor does any that opens a block close a loop. -/
theorem Token.Kind.isLoopClose_of_isOpening {kind : Token.Kind} (h : kind.isOpening = true) :
    kind.isLoopClose = false := by
  cases kind <;> first | rfl | cases h

theorem Token.Kind.isLoop_of_isWritten {kind : Token.Kind} (h : kind.isWritten = true) :
    kind.isLoop = false ∧ kind.isLoopClose = false := by
  cases kind <;> first | exact ⟨rfl, rfl⟩ | cases h

namespace Host
variable {κ : Type} {host : Host κ} {token : Token} {level resume : Nat} {s s' : RenderState κ}
  {resolution : Resolution}

theorem of_define {name : String} {meaning : Token.Meaning}
    (h : host.define token name meaning s = (.ok resolution, s')) :
    resolution = .ignore ∧ s'.frames = s.frames := by
  unfold define at h
  dsimp only at h
  split at h
  · cases h
    exact ⟨rfl, rfl⟩
  · cases h

theorem frames_write (token : Token) (s : RenderState κ) :
    (host.write token s).2.frames = s.frames := by
  unfold write
  dsimp only
  split <;> rfl

theorem of_openConditional {condition : Token.Condition} {offset : Option Nat}
    (h : host.openConditional token condition level offset s = (.ok resolution, s')) :
    ∃ truthy, resolution = .ignore ∧
      s'.frames = { token, truthy, live := true, level, resume := offset } :: s.frames := by
  unfold openConditional at h
  split at h
  · cases h
    exact ⟨_, rfl, rfl⟩
  · cases h

theorem of_openEach {name text : String}
    (h : host.openEach token name text level resume s = (.ok resolution, s')) :
    resolution = .ignore ∧
      (s'.frames = { token, truthy := false, live := true, level } :: s.frames ∨
        ∃ items, s'.frames =
          { token, truthy := true, live := true, level, resume := some resume, items := some items }
            :: s.frames) := by
  unfold openEach at h
  split at h
  · cases h
  · split at h
    · cases h
      exact ⟨rfl, .inl rfl⟩
    · cases h
      exact ⟨rfl, .inr ⟨_, rfl⟩⟩

theorem of_markElse (hk : token.kind = .elseMark)
    (h : markElse token level s = (.ok resolution, s')) :
    FrameStep token level resume s.frames resolution s'.frames := by
  unfold markElse at h
  split at h
  · cases h
  · next top below hf =>
    split at h
    · next hc =>
      cases h
      rw [hf]
      exact .elseMarked hk hc.1 hc.2
    · cases h

theorem topIs_iff {frames : Frames} {kind : Token.Kind} :
    frames.topIs kind level = true ↔
      ∃ top below, frames = top :: below ∧ top.kind = kind ∧ top.level = level := by
  cases frames with
  | nil => exact ⟨nofun, nofun⟩
  | cons top below =>
    unfold Frames.topIs
    rw [Bool.and_eq_true, decide_eq_true_eq, decide_eq_true_eq]
    constructor
    · exact fun h => ⟨top, below, rfl, h⟩
    · rintro ⟨_, _, he, h⟩
      cases he
      exact h

theorem of_closeIf (hk : token.kind = .ifClose)
    (h : closeIf token level s = (.ok resolution, s')) :
    FrameStep token level resume s.frames resolution s'.frames := by
  unfold closeIf at h
  dsimp only at h
  by_cases helse : s.frames.topIs .elseMark level = true
  · rw [if_pos helse] at h
    obtain ⟨mark, rest, hf, hm, hml⟩ := topIs_iff.1 helse
    rw [hf] at h ⊢
    split at h
    · next hif =>
      cases h
      obtain ⟨top, below, hr, ht, hl⟩ := topIs_iff.1 hif
      obtain rfl : rest = top :: below := hr
      exact .elseClosed hk hm hml ht hl
    · cases h
  · rw [if_neg helse] at h
    split at h
    · next hif =>
      cases h
      obtain ⟨top, below, hf, ht, hl⟩ := topIs_iff.1 hif
      rw [hf]
      exact .ifClosed hk ht hl
    · cases h

theorem of_closeWhile (hk : token.kind = .whileClose)
    (h : host.closeWhile token level s = (.ok resolution, s')) :
    FrameStep token level resume s.frames resolution s'.frames := by
  unfold closeWhile at h
  split at h
  · cases h
  · next top below hf =>
    split at h
    · next condition hd =>
      have ht : top.kind = .whileOpen := congrArg Token.Directive.kind hd
      have hcloses : ClosesLoop token.kind top.kind := by rw [hk, ht]; exact .whileLoop
      split at h
      · next hl =>
        dsimp only at h
        split at h
        · next hagain =>
          cases h
          rw [hf]
          refine .loopAgain top.items hcloses hl ?_ (.inl rfl)
          cases htr : top.truthy with
          | true => rfl
          | false =>
            rw [htr] at hagain
            cases hagain
        · cases h
          rw [hf]
          exact .loopClosed hcloses hl
        · cases h
      · cases h
    · cases h

theorem of_closeEach (hk : token.kind = .eachClose)
    (h : closeEach token level s = (.ok resolution, s')) :
    FrameStep token level resume s.frames resolution s'.frames := by
  unfold closeEach at h
  split at h
  · cases h
  · next top below hf =>
    split at h
    · next name text hd =>
      have ht : top.kind = .eachOpen := congrArg Token.Directive.kind hd
      have hcloses : ClosesLoop token.kind top.kind := by rw [hk, ht]; exact .eachLoop
      split at h
      · next hl =>
        split at h
        · next htr =>
          split at h
          · next item frame hnext =>
            cases h
            unfold Frame.next? at hnext
            split at hnext
            · next hitems =>
              cases hnext
              rw [hf]
              exact .loopAgain _ hcloses hl htr (.inr ⟨_, _, hitems, rfl⟩)
            · cases hnext
          · cases h
            rw [hf]
            exact .loopClosed hcloses hl
        · cases h
          rw [hf]
          exact .loopClosed hcloses hl
      · cases h
    · cases h

/-- A token that does not fail does one of these things to the open blocks. -/
theorem frameStep_of_interpret
    (h : host.interpret token level resume s = (.ok resolution, s')) :
    FrameStep token level resume s.frames resolution s'.frames := by
  have hk : token.kind = token.directive.kind := rfl
  unfold interpret at h
  dsimp only at h
  -- Writing a value, the same for its three directives.
  have hwrite : (if s.frames.suppressed then (.ok .ignore, s)
      else (.ok (host.write token s).1, (host.write token s).2) : Outcome κ Resolution) =
        (.ok resolution, s') → token.kind.isWritten = true →
      FrameStep token level resume s.frames resolution s'.frames := by
    intro h hw
    split at h
    · cases h
      exact .written hw
    · cases h
      rw [frames_write]
      exact .written hw
  -- Opening a block in a part that is not rendered.
  have hskip : s.frames.suppressed = true → token.kind.isOpening = true →
      push (.skipped token level) s = (.ok resolution, s') →
      FrameStep token level resume s.frames resolution s'.frames := by
    intro hs hc h
    cases h
    exact .skipped hs hc
  cases hd : token.directive with
  | empty => rw [hd] at h hk; exact hwrite h (by rw [hk]; rfl)
  | value name => rw [hd] at h hk; exact hwrite h (by rw [hk]; rfl)
  | expression text => rw [hd] at h hk; exact hwrite h (by rw [hk]; rfl)
  | define name meaning =>
    rw [hd] at h hk
    dsimp only at h
    split at h
    · cases h
      exact .defined hk
    · obtain ⟨rfl, hf⟩ := of_define h
      rw [hf]
      exact .defined hk
  | ifOpen condition =>
    rw [hd] at h hk
    dsimp only at h
    split at h
    · next hs => exact hskip hs (by rw [hk]; rfl) h
    · next hs =>
      obtain ⟨truthy, rfl, hf⟩ := of_openConditional h
      rw [hf]
      exact .ifOpened truthy (Bool.eq_false_iff.2 hs) hk
  | elseMark => rw [hd] at h hk; exact of_markElse hk h
  | ifClose => rw [hd] at h hk; exact of_closeIf hk h
  | whileOpen condition =>
    rw [hd] at h hk
    dsimp only at h
    split at h
    · next hs => exact hskip hs (by rw [hk]; rfl) h
    · next hs =>
      obtain ⟨truthy, rfl, hf⟩ := of_openConditional h
      rw [hf]
      exact .whileOpened truthy (Bool.eq_false_iff.2 hs) hk
  | whileClose => rw [hd] at h hk; exact of_closeWhile hk h
  | eachOpen name text =>
    rw [hd] at h hk
    dsimp only at h
    split at h
    · next hs => exact hskip hs (by rw [hk]; rfl) h
    · next hs =>
      obtain ⟨rfl, hf | ⟨items, hf⟩⟩ := of_openEach h
      · rw [hf]
        exact .eachEmpty (Bool.eq_false_iff.2 hs) hk
      · rw [hf]
        exact .eachOpened items (Bool.eq_false_iff.2 hs) hk
  | eachClose => rw [hd] at h hk; exact of_closeEach hk h

/-- A value is written, unless it stands in a part that is not rendered. -/
theorem interpret_of_isWritten (hw : token.kind.isWritten = true) :
    host.interpret token level resume s =
      if s.frames.suppressed then (.ok .ignore, s)
      else (.ok (host.write token s).1, (host.write token s).2) := by
  have hk : token.kind = token.directive.kind := rfl
  unfold interpret
  cases hd : token.directive with
  | empty => rfl
  | value name => rfl
  | expression text => rfl
  | _ =>
    rw [hk, hd] at hw
    cases hw

/-- The callback starts no loop over. -/
def KeepsOn (host : Host κ) : Prop :=
  ∀ callback, host.callback = some callback → ∀ memory token resolution,
    resolution.action ≠ .again → (callback memory token resolution).1.action ≠ .again

theorem resolution_ne_again (vars : Variables) (directive : Token.Directive) :
    (host.resolution vars directive).action ≠ .again := by
  unfold resolution
  split
  · nofun
  · split
    · nofun
    · nofun

/-- Then no value does. -/
theorem KeepsOn.write_ne_again (hc : host.KeepsOn) (token : Token) (s : RenderState κ) :
    (host.write token s).1.action ≠ .again := by
  unfold write
  dsimp only
  split
  · exact resolution_ne_again _ _
  · next callback hcb => exact hc callback hcb _ _ _ (resolution_ne_again _ _)

/-- Then a loop is started over only by its closing token, and if it is rendered. -/
theorem KeepsOn.of_again (hc : host.KeepsOn)
    (h : host.interpret token level resume s = (.ok resolution, s'))
    (ha : resolution.action = .again) :
    ∃ top below items, s.frames = top :: below ∧ ClosesLoop token.kind top.kind ∧
      top.level = level ∧ top.truthy = true ∧ s'.frames = { top with items } :: below := by
  have hstep := frameStep_of_interpret h
  generalize hf : s.frames = frames at hstep
  generalize hf' : s'.frames = frames' at hstep
  cases hstep with
  | written hw =>
    rw [interpret_of_isWritten hw] at h
    split at h
    · cases h
      cases ha
    · cases h
      exact absurd ha (hc.write_ne_again token s)
  | loopAgain items hk hl ht => exact ⟨_, _, items, rfl, hk, hl, ht, rfl⟩
  | _ => cases ha

/-! ### What stays as it is -/

/-- A token opens and closes blocks, sets and removes variables that it or an open block binds, and calls
the callback; what all that leaves alone is as it was. -/
theorem kept_interpret_of_binds {α : Type} (kept : RenderState κ → α) {P : String → Prop}
    (hframes : ∀ s frames, kept { s with frames } = kept s)
    (hset : ∀ s name value, P name → kept { s with vars := s.vars.set name value } = kept s)
    (hremove : ∀ s name, P name → kept { s with vars := s.vars.remove name } = kept s)
    (hmemory : ∀ s memory, kept { s with memory } = kept s) (host : Host κ) {token : Token}
    (level resume : Nat) {s : RenderState κ} (htoken : ∀ name, token.Binds name → P name)
    (hopen : ∀ frame ∈ s.frames, ∀ name, frame.token.Binds name → P name) :
    kept (host.interpret token level resume s).2 = kept s := by
  have hwrite : kept (host.write token s).2 = kept s := by
    unfold write
    dsimp only
    split
    · rfl
    · exact hmemory ..
  have hcond : ∀ condition offset,
      kept (host.openConditional token condition level offset s).2 = kept s := by
    intro condition offset
    unfold openConditional
    split
    · exact hframes ..
    · rfl
  unfold interpret
  dsimp only
  split
  · split
    · rfl
    · exact hwrite
  · split
    · rfl
    · exact hwrite
  · split
    · rfl
    · exact hwrite
  · next name meaning hd =>
    split
    · rfl
    · unfold define
      dsimp only
      split
      · exact hset _ _ _ (htoken name (congrArg Token.Directive.bound? hd))
      · rfl
  · split
    · exact hframes ..
    · exact hcond ..
  · unfold markElse
    split
    · rfl
    · split
      · exact hframes ..
      · rfl
  · unfold closeIf
    dsimp only
    generalize (if s.frames.topIs .elseMark level = true then _ else _ : Frames) = frames
    split
    · exact hframes ..
    · exact hframes ..
  · split
    · exact hframes ..
    · exact hcond ..
  · unfold closeWhile
    split
    · rfl
    · split
      · split
        · dsimp only
          split
          · rfl
          · exact hframes ..
          · rfl
        · rfl
      · rfl
  · next name text hd =>
    split
    · exact hframes ..
    · unfold openEach
      split
      · rfl
      · split
        · exact hframes ..
        · exact (hframes _ _).trans
            (hset _ _ _ (htoken name (congrArg Token.Directive.bound? hd)))
  · unfold closeEach
    split
    · rfl
    · next frame below hf =>
      split
      · next name _ hd =>
        have hp : P name := hopen frame (hf ▸ List.mem_cons_self) name
          (congrArg Token.Directive.bound? hd)
        split
        · split
          · split
            · next item rest _ =>
              exact (hframes { s with vars := s.vars.set name (.str item) } _).trans
                (hset _ _ _ hp)
            · exact (hframes { s with vars := s.vars.remove name } _).trans (hremove _ _ hp)
          · exact hframes ..
        · rfl
      · rfl

theorem kept_interpret {α : Type} (kept : RenderState κ → α)
    (hframes : ∀ s frames, kept { s with frames } = kept s)
    (hset : ∀ s name value, kept { s with vars := s.vars.set name value } = kept s)
    (hremove : ∀ s name, kept { s with vars := s.vars.remove name } = kept s)
    (hmemory : ∀ s memory, kept { s with memory } = kept s) (host : Host κ) (token : Token)
    (level resume : Nat) (s : RenderState κ) :
    kept (host.interpret token level resume s).2 = kept s :=
  kept_interpret_of_binds (P := fun _ => True) kept hframes (fun s name value _ => hset s name value)
    (fun s name _ => hremove s name) hmemory host level resume (fun _ _ => trivial)
    fun _ _ _ _ => trivial

theorem validator_interpret (host : Host κ) (token : Token) (level resume : Nat)
    (s : RenderState κ) :
    (host.interpret token level resume s).2.vars.validator = s.vars.validator :=
  kept_interpret (·.vars.validator) (fun _ _ => rfl) (fun _ _ _ => rfl) (fun _ _ => rfl)
    (fun _ _ => rfl) host token level resume s

theorem tokens_interpret (host : Host κ) (token : Token) (level resume : Nat) (s : RenderState κ) :
    (host.interpret token level resume s).2.tokens = s.tokens :=
  kept_interpret (·.tokens) (fun _ _ => rfl) (fun _ _ _ => rfl) (fun _ _ => rfl) (fun _ _ => rfl) host
    token level resume s

/-- Tokens are always read in the same way. -/
theorem grammar_interpret (host : Host κ) (token : Token) (level resume : Nat) (s : RenderState κ) :
    host.grammar (host.interpret token level resume s).2.vars = host.grammar s.vars := by
  have hv := validator_interpret host token level resume s
  unfold grammar
  congr 1
  funext name
  unfold Variables.accepts
  rw [hv]

/-! ### Failures -/

theorem namesPlace_of_evaluate {id : Nat} {vars : Variables} {text : String} {e : RenderError}
    (h : host.evaluate id vars text = .error e) : e.namesPlace = false := by
  unfold evaluate at h
  cases hv : host.evaluator text vars with
  | ok v =>
    rw [hv] at h
    cases h
  | error err =>
    rw [hv] at h
    cases h
    rfl

theorem namesPlace_of_decide {id : Nat} {vars : Variables} {condition : Token.Condition}
    {e : RenderError} (h : host.decide id vars condition = .error e) : e.namesPlace = false := by
  cases condition with
  | holds name => cases h
  | fails name => cases h
  | expression text =>
    cases hv : host.evaluate id vars text with
    | ok v =>
      rw [decide, hv] at h
      cases h
    | error err =>
      rw [decide, hv] at h
      cases h
      exact namesPlace_of_evaluate hv

variable {e : RenderError}

theorem namesPlace_of_define {name : String} {meaning : Token.Meaning}
    (h : host.define token name meaning s = (.error e, s')) : e.namesPlace = false := by
  unfold define at h
  dsimp only at h
  split at h
  · cases h
  · next err he =>
    cases h
    cases meaning with
    | text t => cases he
    | expression t => exact namesPlace_of_evaluate he

theorem namesPlace_of_openConditional {condition : Token.Condition} {offset : Option Nat}
    (h : host.openConditional token condition level offset s = (.error e, s')) :
    e.namesPlace = false := by
  unfold openConditional at h
  split at h
  · cases h
  · next he =>
    cases h
    exact namesPlace_of_decide he

theorem namesPlace_of_openEach {name text : String}
    (h : host.openEach token name text level resume s = (.error e, s')) : e.namesPlace = false := by
  unfold openEach at h
  split at h
  · next he =>
    cases h
    exact namesPlace_of_evaluate he
  · split at h
    · cases h
    · cases h

theorem namesPlace_of_markElse (h : markElse token level s = (.error e, s')) :
    e.namesPlace = false := by
  unfold markElse at h
  split at h
  · cases h
    rfl
  · split at h
    · cases h
    · cases h
      rfl

theorem namesPlace_of_closeIf (h : closeIf token level s = (.error e, s')) :
    e.namesPlace = false := by
  unfold closeIf at h
  dsimp only at h
  generalize (if s.frames.topIs .elseMark level = true then _ else _ : Frames) = frames at h
  split at h
  · cases h
  · cases h
    rfl

theorem namesPlace_of_closeWhile (h : host.closeWhile token level s = (.error e, s')) :
    e.namesPlace = false := by
  unfold closeWhile at h
  split at h
  · cases h
    rfl
  · next top below hf =>
    split at h
    · next condition hd =>
      split at h
      · dsimp only at h
        split at h
        · cases h
        · cases h
        · next he =>
          cases h
          cases ht : top.truthy with
          | true =>
            rw [ht] at he
            exact namesPlace_of_decide he
          | false =>
            rw [ht] at he
            cases he
      · cases h
        rfl
    · cases h
      rfl

theorem namesPlace_of_closeEach (h : closeEach token level s = (.error e, s')) :
    e.namesPlace = false := by
  unfold closeEach at h
  split at h
  · cases h
    rfl
  · split at h
    · split at h
      · split at h
        · split at h
          · cases h
          · cases h
        · cases h
      · cases h
        rfl
    · cases h
      rfl

/-- No token by itself has nowhere to go back to. -/
theorem namesPlace_of_interpret (h : host.interpret token level resume s = (.error e, s')) :
    e.namesPlace = false := by
  unfold interpret at h
  dsimp only at h
  cases hd : token.directive with
  | empty => rw [hd] at h; dsimp only at h; split at h <;> cases h
  | value name => rw [hd] at h; dsimp only at h; split at h <;> cases h
  | expression text => rw [hd] at h; dsimp only at h; split at h <;> cases h
  | define name meaning =>
    rw [hd] at h
    dsimp only at h
    split at h
    · cases h
    · exact namesPlace_of_define h
  | ifOpen condition =>
    rw [hd] at h
    dsimp only at h
    split at h
    · cases h
    · exact namesPlace_of_openConditional h
  | elseMark => rw [hd] at h; exact namesPlace_of_markElse h
  | ifClose => rw [hd] at h; exact namesPlace_of_closeIf h
  | whileOpen condition =>
    rw [hd] at h
    dsimp only at h
    split at h
    · cases h
    · exact namesPlace_of_openConditional h
  | whileClose => rw [hd] at h; exact namesPlace_of_closeWhile h
  | eachOpen name text =>
    rw [hd] at h
    dsimp only at h
    split at h
    · cases h
    · exact namesPlace_of_openEach h
  | eachClose => rw [hd] at h; exact namesPlace_of_closeEach h

/-! ### What a failure leaves behind -/

theorem eq_of_define_error {name : String} {meaning : Token.Meaning}
    (h : host.define token name meaning s = (.error e, s')) : s' = s := by
  unfold define at h
  dsimp only at h
  split at h
  · cases h
  · cases h
    rfl

theorem eq_of_openConditional_error {condition : Token.Condition} {offset : Option Nat}
    (h : host.openConditional token condition level offset s = (.error e, s')) : s' = s := by
  unfold openConditional at h
  split at h
  · cases h
  · cases h
    rfl

theorem eq_of_openEach_error {name text : String}
    (h : host.openEach token name text level resume s = (.error e, s')) : s' = s := by
  unfold openEach at h
  split at h
  · cases h
    rfl
  · split at h
    · cases h
    · cases h

theorem eq_of_markElse_error (h : markElse token level s = (.error e, s')) : s' = s := by
  unfold markElse at h
  split at h
  · cases h
    rfl
  · split at h
    · cases h
    · cases h
      rfl

theorem eq_of_closeWhile_error (h : host.closeWhile token level s = (.error e, s')) : s' = s := by
  unfold closeWhile at h
  split at h
  · cases h
    rfl
  · split at h
    · split at h
      · dsimp only at h
        split at h
        · cases h
        · cases h
        · cases h
          rfl
      · cases h
        rfl
    · cases h
      rfl

theorem eq_of_closeEach_error (h : closeEach token level s = (.error e, s')) : s' = s := by
  unfold closeEach at h
  split at h
  · cases h
    rfl
  · split at h
    · split at h
      · split at h
        · split at h
          · cases h
          · cases h
        · cases h
      · cases h
        rfl
    · cases h
      rfl

/-- An `/if` that fails takes at most an `else` away that has no `if` below it. -/
theorem of_closeIf_error (h : closeIf token level s = (.error e, s')) :
    s' = s ∨ ∃ mark below, s.frames = mark :: below ∧ mark.kind = .elseMark ∧ mark.level = level ∧
      Frames.topIs below .ifOpen level = false ∧ s' = { s with frames := below } := by
  unfold closeIf at h
  dsimp only at h
  by_cases helse : s.frames.topIs .elseMark level = true
  · rw [if_pos helse] at h
    obtain ⟨mark, below, hf, hm, hl⟩ := topIs_iff.1 helse
    rw [hf] at h
    split at h
    · cases h
    · next hif =>
      cases h
      exact .inr ⟨mark, below, hf, hm, hl, Bool.eq_false_iff.2 hif, rfl⟩
  · rw [if_neg helse] at h
    split at h
    · cases h
    · cases h
      exact .inl rfl

/-- A token that fails leaves everything as it was, but for an `/if` that meets an `else` without
an `if`. -/
theorem of_interpret_error (h : host.interpret token level resume s = (.error e, s')) :
    s' = s ∨ ∃ mark below, s.frames = mark :: below ∧ mark.kind = .elseMark ∧ mark.level = level ∧
      Frames.topIs below .ifOpen level = false ∧ s' = { s with frames := below } := by
  unfold interpret at h
  dsimp only at h
  cases hd : token.directive with
  | empty => rw [hd] at h; dsimp only at h; split at h <;> cases h
  | value name => rw [hd] at h; dsimp only at h; split at h <;> cases h
  | expression text => rw [hd] at h; dsimp only at h; split at h <;> cases h
  | define name meaning =>
    rw [hd] at h
    dsimp only at h
    split at h
    · cases h
    · exact .inl (eq_of_define_error h)
  | ifOpen condition =>
    rw [hd] at h
    dsimp only at h
    split at h
    · cases h
    · exact .inl (eq_of_openConditional_error h)
  | elseMark => rw [hd] at h; exact .inl (eq_of_markElse_error h)
  | ifClose => rw [hd] at h; exact of_closeIf_error h
  | whileOpen condition =>
    rw [hd] at h
    dsimp only at h
    split at h
    · cases h
    · exact .inl (eq_of_openConditional_error h)
  | whileClose => rw [hd] at h; exact .inl (eq_of_closeWhile_error h)
  | eachOpen name text =>
    rw [hd] at h
    dsimp only at h
    split at h
    · cases h
    · exact .inl (eq_of_openEach_error h)
  | eachClose => rw [hd] at h; exact .inl (eq_of_closeEach_error h)

end Host

namespace Token.Grammar
variable {g : Grammar} {fault : TokenFault}

/-- A token has the number that it is given. -/
theorem id_of_classify {id : Nat} {raw : List Char} {token : Token}
    (h : g.classify id raw = .ok token) : token.id = id := by
  unfold classify at h
  split at h
  · cases h
    rfl
  · cases h

/-- What a token says is read off its text. -/
theorem read_of_classify {id : Nat} {raw : List Char} {token : Token}
    (h : g.classify id raw = .ok token) : g.read raw = .ok token.directive := by
  unfold classify at h
  split at h
  · next hr =>
    cases h
    exact hr
  · cases h

theorem name_ne_noResume {text : List Char} (h : g.name text = .error fault) :
    fault ≠ .noResume := by
  unfold name at h
  dsimp only at h
  split at h
  · cases h
  · cases h
    nofun

theorem map_name_ne_noResume {α : Type} {f : String → α} {text : List Char}
    (h : (g.name text).map f = .error fault) : fault ≠ .noResume := by
  cases hn : g.name text with
  | ok name =>
    rw [hn] at h
    cases h
  | error e =>
    rw [hn] at h
    cases h
    exact name_ne_noResume hn

theorem condition_ne_noResume {kind : Kind} {text : List Char}
    (h : g.condition kind text = .error fault) : fault ≠ .noResume := by
  unfold condition at h
  split at h
  · cases h
    nofun
  · dsimp only at h
    split at h
    · cases h
      nofun
    · exact map_name_ne_noResume h
  · split at h
    · cases h
    · exact map_name_ne_noResume h

theorem sequence_ne_noResume {text : List Char} (h : g.sequence text = .error fault) :
    fault ≠ .noResume := by
  unfold sequence at h
  split at h
  · cases h
    nofun
  · dsimp only at h
    split at h
    · exact map_name_ne_noResume h
    · cases h
      nofun

theorem alone_ne_noResume {kind : Kind} {rest : List Char} {directive : Directive}
    (h : alone kind rest directive = .error fault) : fault ≠ .noResume := by
  unfold alone at h
  split at h
  · cases h
  · cases h
    nofun

theorem directive_ne_noResume {kind : Kind} {rest : List Char}
    (h : g.directive kind rest = .error fault) : fault ≠ .noResume := by
  have hcondition : ∀ {f : Condition → Directive},
      (g.condition kind rest).map f = .error fault → fault ≠ .noResume := by
    intro f h
    cases hc : g.condition kind rest with
    | ok condition =>
      rw [hc] at h
      cases h
    | error e =>
      rw [hc] at h
      cases h
      exact condition_ne_noResume hc
  cases kind with
  | ifOpen => exact hcondition h
  | whileOpen => exact hcondition h
  | eachOpen => exact sequence_ne_noResume h
  | elseMark => exact alone_ne_noResume h
  | ifClose => exact alone_ne_noResume h
  | whileClose => exact alone_ne_noResume h
  | eachClose => exact alone_ne_noResume h
  | _ => cases h

theorem valueOrDefinition_ne_noResume {text : List Char}
    (h : g.valueOrDefinition text = .error fault) : fault ≠ .noResume := by
  unfold valueOrDefinition at h
  split at h
  · split at h
    · exact map_name_ne_noResume h
    · cases h
  · exact map_name_ne_noResume h
  · cases h
  · exact map_name_ne_noResume h

/-- No text is a token that has nowhere to go back to. -/
theorem namesPlace_of_classify {id : Nat} {raw : List Char} {e : RenderError}
    (h : g.classify id raw = .error e) : e.namesPlace = false := by
  unfold classify at h
  split at h
  · cases h
  · next fault hread =>
    cases h
    have hne : fault ≠ .noResume := by
      unfold read at hread
      dsimp only at hread
      split at hread
      · cases hread
      · split at hread
        · exact directive_ne_noResume hread
        · exact valueOrDefinition_ne_noResume hread
    cases fault with
    | noResume => exact absurd rfl hne
    | _ => rfl

end Token.Grammar

end Stencil
