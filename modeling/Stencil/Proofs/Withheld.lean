import Stencil.Proofs.Nesting

/-! Parts that are not rendered.

Where output is withheld a token goes by the open blocks alone: whatever the host and the variables
are, it comes to the same thing, and changes nothing but the blocks (`exists_interpret_of_suppressed`).
So a step there is the same step in any other `World` (`Rendering.step_into`), in particular in one
with other variables, another evaluator or another callback; and because the world it is taken in is
one of them, the step leaves that as it is. This lasts until the block is closed, or divided, that
output is withheld for (`Rendering.inert_of_suppressed`). -/
namespace Stencil

/-- What a rendering goes by, changes and writes to, besides its passages and blocks. -/
structure World (κ : Type) where
  host : Host κ
  vars : Variables
  memory : κ
  sink : Sink

/-- Tokens are read in a world as they are under a host with these variables. -/
def World.Suits {κ κ' : Type} (world : World κ') (host : Host κ) (vars : Variables) : Prop :=
  world.host.grammar world.vars = host.grammar vars

section
variable {κ κ' σ : Type}

/-- The same blocks and counts in another world. -/
def RenderState.into (s : RenderState κ) (world : World κ') : RenderState κ' :=
  { frames := s.frames
    position := s.position
    tokens := s.tokens
    vars := world.vars
    memory := world.memory }

namespace Rendering

/-- The same place in the same passages in another world. -/
def into (r : Rendering κ σ) (world : World κ') : Rendering κ' σ :=
  { passage := r.passage
    outer := r.outer
    state := r.state.into world
    pool := r.pool
    sink := world.sink }

def world (r : Rendering κ σ) (host : Host κ) : World κ :=
  ⟨host, r.state.vars, r.state.memory, r.sink⟩

/-- What the same rendering comes upon in another world. -/
def Encounter.into (world : World κ') : Encounter κ σ → Encounter κ' σ
  | token raw r => .token raw (r.into world)
  | ending r => .ending (r.into world)
  | failure e r => .failure e (r.into world)

end Rendering

/-- The rendering is under way, and its output is withheld. -/
def Progress.withholds : Progress κ σ → Bool
  | running r => r.state.frames.suppressed
  | _ => false

/-- How far the same rendering has come in another world. -/
def Progress.into (world : World κ') : Progress κ σ → Progress κ' σ
  | running r => .running (r.into world)
  | finished r => .finished (r.into world)
  | failed e r => .failed e (r.into world)

theorem Rendering.world_into (p : Progress κ σ) (world : World κ') :
    (p.into world).rendering.world world.host = world := by
  cases p with
  | running r => rfl
  | finished r => rfl
  | failed e r => rfl

end

/-! ### The block that output is withheld for -/

/-- Output is withheld for a block around which it was not. -/
theorem Frames.Sound.exists_cause {frames : Frames} (h : frames.Sound)
    (hs : frames.suppressed = true) :
    ∃ cause below, frames.WithheldBy cause below ∧ Frames.suppressed below = false := by
  induction frames with
  | nil => cases hs
  | cons top below ih =>
    have htop : top.truthy = false := by simpa [suppressed_cons] using hs
    by_cases hb : Frames.suppressed below = true
    · obtain ⟨cause, rest, ⟨hc, above, rfl, hcover⟩, hrest⟩ := ih h.2 hb
      refine ⟨cause, rest, ⟨hc, top :: above, rfl, fun hcovered => ?_⟩, hrest⟩
      cases above with
      | cons next above => exact hcover hcovered
      | nil =>
        -- The topmost block would be the `else` of one that could not have been rendered.
        obtain ⟨hk, mark, hm, hmark, _⟩ := hcovered
        cases hm
        obtain ⟨opener, more, he, _, _, _, htruthy⟩ := h.1.onOpener hmark
        cases he
        have hlive : cause.live = true := by
          rw [h.2.1.live_eq (by rw [hk]; nofun), hrest]
          rfl
        rw [htop, hlive, hc] at htruthy
        cases htruthy
    · refine ⟨top, below, ⟨htop, [], rfl, ?_⟩, Bool.eq_false_iff.2 hb⟩
      rintro ⟨_, mark, hm, _⟩
      cases hm

/-! ### Tokens -/

namespace Host
variable {top : Frame} {below frames : Frames}

/-- A `while` that is not rendered is closed without asking again. -/
theorem exists_closeWhile_of_not_truthy (token : Token) (level : Nat) (below : Frames) (ht : top.truthy = false) :
    ∃ (result : Except RenderError Resolution) (frames' : Frames),
      ∀ {κ : Type} (host : Host κ) (s : RenderState κ), s.frames = top :: below →
        host.closeWhile token level s = (result, { s with frames := frames' }) := by
  by_cases hw : (∃ condition, top.token.directive = .whileOpen condition) ∧ top.level = level
  · obtain ⟨⟨condition, hd⟩, hl⟩ := hw
    refine ⟨.ok .ignore, below, fun host s hf => ?_⟩
    unfold closeWhile
    rw [hf]
    dsimp only
    rw [hd]
    dsimp only
    rw [if_pos hl, if_neg (ne_true_of_eq_false ht)]
  · refine ⟨.error (unmatched token .whileOpen), top :: below, fun host s hf => ?_⟩
    unfold closeWhile
    rw [hf]
    dsimp only
    split
    · next condition hd =>
      rw [if_neg fun hl => hw ⟨⟨condition, hd⟩, hl⟩, ← hf]
    · rw [← hf]

/-- An `each` that is not rendered is closed without another item. -/
theorem exists_closeEach_of_not_truthy (token : Token) (level : Nat) (below : Frames) (ht : top.truthy = false) :
    ∃ (result : Except RenderError Resolution) (frames' : Frames),
      ∀ {κ : Type} (s : RenderState κ), s.frames = top :: below →
        closeEach token level s = (result, { s with frames := frames' }) := by
  by_cases he : (∃ name text, top.token.directive = .eachOpen name text) ∧ top.level = level
  · obtain ⟨⟨name, text, hd⟩, hl⟩ := he
    refine ⟨.ok .ignore, below, fun s hf => ?_⟩
    unfold closeEach
    rw [hf]
    dsimp only
    rw [hd]
    dsimp only
    rw [if_pos hl, if_neg (ne_true_of_eq_false ht)]
  · refine ⟨.error (unmatched token .eachOpen), top :: below, fun s hf => ?_⟩
    unfold closeEach
    rw [hf]
    dsimp only
    split
    · next name text hd =>
      rw [if_neg fun hl => he ⟨⟨name, text, hd⟩, hl⟩, ← hf]
    · rw [← hf]

/-- Whether an `else` is out of place is a matter of the blocks. -/
theorem exists_markElse (token : Token) (level : Nat) (top : Frame) (below : Frames) :
    ∃ (result : Except RenderError Resolution) (frames' : Frames),
      ∀ {κ : Type} (s : RenderState κ), s.frames = top :: below →
        markElse token level s = (result, { s with frames := frames' }) := by
  by_cases ht : top.kind = .ifOpen ∧ top.level = level
  · refine ⟨.ok .ignore,
      { token, truthy := top.live && !top.truthy, live := top.live, level } :: top :: below,
      fun s hf => ?_⟩
    unfold markElse push
    rw [hf]
    exact if_pos ht
  · refine ⟨.error (unmatched token .ifOpen), top :: below, fun s hf => ?_⟩
    unfold markElse
    rw [hf]
    dsimp only
    rw [if_neg ht, ← hf]

/-- So is whether an `/if` is. -/
theorem exists_closeIf (token : Token) (level : Nat) (frames : Frames) :
    ∃ (result : Except RenderError Resolution) (frames' : Frames),
      ∀ {κ : Type} (s : RenderState κ), s.frames = frames →
        closeIf token level s = (result, { s with frames := frames' }) := by
  let rest : Frames := if frames.topIs .elseMark level then frames.tail else frames
  by_cases ht : rest.topIs .ifOpen level = true
  · refine ⟨.ok .ignore, rest.tail, fun s hf => ?_⟩
    unfold closeIf
    rw [hf]
    exact if_pos ht
  · refine ⟨.error (unmatched token .ifOpen), rest, fun s hf => ?_⟩
    unfold closeIf
    rw [hf]
    exact if_neg ht

/-- **What a token comes to where output is withheld** is a matter of the blocks alone, whatever the
host and the variables are, and so is what becomes of the blocks; nothing else changes. -/
theorem exists_interpret_of_suppressed (token : Token) (level : Nat)
    (hs : frames.suppressed = true) :
    ∃ (result : Except RenderError Resolution) (frames' : Frames),
      ∀ {κ : Type} (host : Host κ) (resume : Nat) (s : RenderState κ), s.frames = frames →
        host.interpret token level resume s = (result, { s with frames := frames' }) := by
  cases frames with
  | nil => cases hs
  | cons top below =>
    have htop : top.truthy = false := by simpa [Frames.suppressed_cons] using hs
    unfold interpret
    cases token.directive with
    | empty | value | expression | define =>
      refine ⟨.ok .ignore, top :: below, fun host resume s hf => ?_⟩
      dsimp only
      rw [hf, if_pos hs, ← hf]
    | ifOpen | whileOpen | eachOpen =>
      refine ⟨.ok .ignore, .skipped token level :: top :: below, fun host resume s hf => ?_⟩
      dsimp only
      rw [hf, if_pos hs, push, hf]
    | elseMark =>
      obtain ⟨result, frames', h⟩ := exists_markElse token level top below
      exact ⟨result, frames', fun _ _ s hf => h s hf⟩
    | ifClose =>
      obtain ⟨result, frames', h⟩ := exists_closeIf token level (top :: below)
      exact ⟨result, frames', fun _ _ s hf => h s hf⟩
    | whileClose =>
      obtain ⟨result, frames', h⟩ := exists_closeWhile_of_not_truthy token level below htop
      exact ⟨result, frames', fun host _ s hf => h host s hf⟩
    | eachClose =>
      obtain ⟨result, frames', h⟩ := exists_closeEach_of_not_truthy token level below htop
      exact ⟨result, frames', fun _ _ s hf => h s hf⟩

variable {κ κ' : Type}

/-- In another world a token comes to the same where output is withheld. -/
theorem interpret_into (host : Host κ) (world : World κ') (token : Token) (level resume : Nat)
    {s : RenderState κ} (hs : s.frames.suppressed = true) :
    world.host.interpret token level resume (s.into world) =
      ((host.interpret token level resume s).1,
        (host.interpret token level resume s).2.into world) := by
  obtain ⟨result, frames', h⟩ := exists_interpret_of_suppressed token level hs
  rw [h host resume s rfl, h world.host resume (s.into world) rfl]
  rfl

end Host

/-! ### Reading on -/

namespace Rendering
variable {κ κ' σ : Type} {r r' : Rendering κ σ}

theorem frames_into (r : Rendering κ σ) (world : World κ') :
    (r.into world).state.frames = r.state.frames := rfl

/-- Literal text is dropped where output is withheld. -/
theorem writeLiteral_of_suppressed (hs : r.state.frames.suppressed = true) (text : List Char) :
    r.writeLiteral text = (.ok (), r) := if_pos hs

section
variable [CharSource σ]

theorem span_into (r : Rendering κ σ) (world : World κ') :
    (r.into world).span = (r.span.1, r.span.2.into world) := rfl

/-- Where output is withheld, going through literal text is looking for its end. -/
theorem passText_of_suppressed (scan : TextScan) {result : Except RenderError (List Char)}
    (hs : r.state.frames.suppressed = true) (h : r.span = (result, r')) :
    r.passText scan =
      match result with
      | .error e => (.error e, r')
      | .ok [] => (.ok false, r')
      | .ok (c :: cs) =>
        let scanned := scan.scan (c :: cs)
        if scanned.found then (.ok true, r'.advance scanned.consumed)
        else (r'.advance scanned.consumed).passText
          (scanned.scan.take scanned.scan.left.matched).2 := by
  have hs' : r'.state.frames.suppressed = true := by
    obtain ⟨window, pool, sink, rfl⟩ := ReadsTo.span h
    exact hs
  have hw : ∀ count text, (r'.advance count).writeLiteral text = (.ok (), r'.advance count) :=
    fun count text => writeLiteral_of_suppressed (r := r'.advance count) hs' text
  rw [passText]
  split
  · next e r₁ hspan =>
    cases h.symm.trans hspan
    rfl
  · next r₁ hspan =>
    cases h.symm.trans hspan
    rw [writeLiteral_of_suppressed hs']
  · next c cs r₁ hspan =>
    cases h.symm.trans hspan
    dsimp only
    split
    · rw [hw]
    · split
      · next e r₂ he =>
        cases (hw _ _).symm.trans he
      · next r₂ he =>
        cases (hw _ _).symm.trans he
        rfl

/-- Reading the rest of a token is looking for its end. -/
theorem readToken_of_span (scan : CloseScan) {result : Except RenderError (List Char)}
    (h : r.span = (result, r')) :
    r.readToken scan =
      match result with
      | .error e => (.error e, r')
      | .ok [] => (.ok none, r')
      | .ok (c :: cs) =>
        let scanned := scan.scan (c :: cs)
        if scanned.found then (.ok (some scanned.scan.text), r'.advance scanned.consumed)
        else (r'.advance scanned.consumed).readToken scanned.scan := by
  rw [readToken]
  split
  · next e r₁ hspan =>
    cases h.symm.trans hspan
    rfl
  · next r₁ hspan =>
    cases h.symm.trans hspan
    rfl
  · next c cs r₁ hspan =>
    cases h.symm.trans hspan
    rfl

/-- In another world the same literal text is gone through. -/
theorem passText_into (scan : TextScan) (r : Rendering κ σ) (world : World κ')
    (hs : r.state.frames.suppressed = true) :
    (r.into world).passText scan = ((r.passText scan).1, (r.passText scan).2.into world) := by
  cases h : r.span with
  | mk result r' =>
    have h' : (r.into world).span = (result, r'.into world) := by rw [span_into, h]
    have hs' : r'.state.frames.suppressed = true := by
      obtain ⟨window, pool, sink, rfl⟩ := ReadsTo.span h
      exact hs
    rw [passText_of_suppressed scan hs h, passText_of_suppressed (r := r.into world) scan hs h']
    rcases result with e | _ | ⟨c, cs⟩
    · rfl
    · rfl
    · dsimp only
      split
      · rfl
      · exact passText_into _ (r'.advance (scan.scan (c :: cs)).consumed) world hs'
termination_by r.passage.window.ahead
decreasing_by exact ahead_of_span h (consumed_scanWith_pos _ _ _ _)

/-- In another world the same token is read. -/
theorem readToken_into (scan : CloseScan) (r : Rendering κ σ) (world : World κ') :
    (r.into world).readToken scan = ((r.readToken scan).1, (r.readToken scan).2.into world) := by
  cases h : r.span with
  | mk result r' =>
    have h' : (r.into world).span = (result, r'.into world) := by rw [span_into, h]
    rw [readToken_of_span scan h, readToken_of_span scan h']
    rcases result with e | _ | ⟨c, cs⟩
    · rfl
    · rfl
    · dsimp only
      split
      · rfl
      · exact readToken_into _ (r'.advance (scan.scan (c :: cs)).consumed) world
termination_by r.passage.window.ahead
decreasing_by exact ahead_of_span h (consumed_scanWith_pos _ _ _ _)

/-- In another world a rendering comes upon the same. -/
theorem meet_into {host : Host κ} {world : World κ'} (hs : r.state.frames.suppressed = true)
    (hw : world.Suits host r.state.vars) :
    (r.into world).meet world.host = (r.meet host).into world := by
  have hleft : world.host.left = host.left := congrArg Token.Grammar.left hw
  have hright : world.host.right = host.right := congrArg Token.Grammar.right hw
  have hscan : ∀ level, textScan world.host level = textScan host level := by
    intro level
    rw [textScan, hleft, textScan]
  unfold meet
  rw [show (r.into world).passage.level = r.passage.level from rfl, hscan, passText_into _ r world hs,
    hleft, hright]
  cases r.passText (textScan host r.passage.level) with
  | mk result r₁ =>
    rcases result with e | _ | _
    · rfl
    · rfl
    · dsimp only
      rw [readToken_into _ r₁ world]
      cases r₁.readToken (.start host.left host.right) with
      | mk result r₂ =>
        rcases result with e | _ | raw
        · rfl
        · rfl
        · rfl

end

/-! ### Acting on tokens -/

/-- In another world a passage is left alike. -/
theorem leave_into (r : Rendering κ σ) (world : World κ') :
    (r.into world).leave = r.leave.into world := by
  have hdone : leave.done (r.into world) = (leave.done r).into world := by
    unfold leave.done
    rw [show (r.into world).outer = r.outer from rfl]
    cases r.outer with
    | nil => rfl
    | cons passage outer => rfl
  unfold leave
  rw [frames_into]
  cases r.state.frames with
  | nil => exact hdone
  | cons top below =>
    dsimp only
    by_cases ho : r.passage.opened < below.length + 1
    · rw [if_pos ho]
      exact if_pos ho
    · rw [if_neg ho, ← hdone]
      exact if_neg ho

/-- In another world a token is acted on alike, where output is withheld. -/
theorem act_into {host : Host κ} {world : World κ'} (hs : r.state.frames.suppressed = true)
    (hw : world.Suits host r.state.vars) (raw : List Char) :
    act world.host (r.into world) raw = (act host r raw).into world := by
  have hclassify : (world.host.grammar (r.into world).counted.vars).classify
      (r.into world).counted.tokens raw =
      (host.grammar r.counted.vars).classify r.counted.tokens raw := by
    show (world.host.grammar world.vars).classify _ raw = (host.grammar r.state.vars).classify _ raw
    rw [hw]
    rfl
  cases hc : (host.grammar r.counted.vars).classify r.counted.tokens raw with
  | error e =>
    rw [act_of_classify_error hc, act_of_classify_error (hclassify.trans hc)]
    rfl
  | ok token =>
    have hinterpret := Host.interpret_into host world token r.passage.level r.passage.window.cursor
      (s := r.counted) hs
    cases hi : host.interpret token r.passage.level r.passage.window.cursor r.counted with
    | mk result state =>
      rw [hi] at hinterpret
      cases result with
      | error e =>
        rw [act_of_interpret_error hc hi,
          act_of_interpret_error (hclassify.trans hc) hinterpret]
        rfl
      | ok resolution =>
        have hignore : resolution = .ignore := Host.eq_ignore_of_suppressed hi hs
        rw [act_of_resolves ⟨hc, hi⟩, act_of_resolves ⟨hclassify.trans hc, hinterpret⟩, hignore,
          followLoop_eq, followLoop_eq]
        rfl

theorem outer_act (host : Host κ) (raw : List Char) (hs : r.state.frames.suppressed = true) :
    (act host r raw).rendering.outer = r.outer := by
  rcases act_cases host r raw with ⟨token, resolution, state, hres⟩ | ⟨e, state, he, _⟩
  · have hignore : resolution = .ignore :=
      Host.eq_ignore_of_suppressed (s := r.counted) hres.interpret hs
    rw [act_of_resolves hres, hignore, followLoop_eq]
    rfl
  · rw [he]
    rfl

theorem sound_act (host : Host κ) (raw : List Char) (h : r.state.frames.Sound)
    (ha : act host r raw = .running r') : r'.state.frames.Sound := by
  rcases act_cases host r raw with ⟨token, resolution, state, hres⟩ | ⟨e, state, he, _⟩
  · rw [act_of_resolves hres, followLoop_eq] at ha
    have hsound : state.frames.Sound := by
      have := Frames.Sound.interpret (s := r.counted) h host token r.passage.level
        r.passage.window.cursor
      rwa [hres.interpret] at this
    rcases carryOut_cases host _ token.id resolution with
      ⟨sink, hrun⟩ | ⟨value, _, hrun⟩ | ⟨e, r₁, hrun, _, _⟩ | ⟨_, hrun⟩
    · cases hrun.symm.trans ha
      exact hsound
    · cases hrun.symm.trans ha
      exact hsound
    · cases hrun.symm.trans ha
    · rw [hrun] at ha
      rcases replay_cases _ token.id with ⟨window, hre⟩ | ⟨e, hre⟩
      · cases hre.symm.trans ha
        exact hsound
      · cases hre.symm.trans ha
  · cases he.symm.trans ha

theorem sound_leave (h : r.state.frames.Sound) (hl : r.leave = .running r') :
    r'.state.frames.Sound := by
  rcases leave_cases r with ⟨e, he, _⟩ | ⟨_, ⟨_, he⟩ | ⟨p, outer, _, he⟩⟩
  · cases he.symm.trans hl
  · cases he.symm.trans hl
  · cases he.symm.trans hl
    exact h

/-! ### Places -/

/-- A place that a rendering can come to: the blocks rest on each other, and each passage has its own
on top of those that it began with, where output was not withheld. -/
def Placed (r : Rendering κ σ) : Prop :=
  r.state.frames.Sound ∧
    ∃ own below, r.Nests (fun frames => frames.suppressed = false) [] [] own below

/-- As long as a rendering is under way, it is at such a place. -/
def PlacedAfter : Progress κ σ → Prop
  | .running r => r.Placed
  | _ => True

theorem placed_start (window : Window σ) (level : Nat) {state : RenderState κ} (pool : Pool)
    (sink : Sink) (hf : state.frames = []) : (start window level state pool sink).Placed := by
  have hframes : (start window level state pool sink).state.frames = [] := hf
  refine ⟨hframes ▸ trivial, [], [], hframes, rfl, congrArg List.length hf, nofun, nofun, .base⟩

/-! ### Steps and runs in another world -/

variable [CharSource σ]

/-- **A step where output is withheld is the same step in any other world.** -/
theorem step_into {host : Host κ} {world : World κ'} (hs : r.state.frames.suppressed = true)
    (hw : world.Suits host r.state.vars) :
    (r.into world).step world.host = (r.step host).into world := by
  have hreads := readsTo_meet host r
  rw [step_eq, step_eq, meet_into hs hw]
  cases hm : r.meet host with
  | token raw r' =>
    rw [hm] at hreads
    obtain ⟨window, pool, sink, rfl⟩ : r.ReadsTo r' := hreads
    exact act_into (r := { r.withWindow window with pool, sink }) hs hw raw
  | ending r' => exact leave_into r' world
  | failure e r' => rfl

/-- So the world that it is taken in stays as it is. -/
theorem world_step {host : Host κ} (hs : r.state.frames.suppressed = true) :
    (r.step host).rendering.world host = r.world host := by
  have hsuits : (r.world host).Suits host r.state.vars := rfl
  have hinto := step_into hs hsuits
  have hsame : r.step host = (r.step host).into (r.world host) := hinto
  rw [hsame]
  exact world_into _ (r.world host)

/-- The same goes for as many steps as are taken where output is withheld. -/
theorem run_into {host : Host κ} {world : World κ'} {steps : Nat}
    (hs : ∀ taken < steps, ∃ r', r.run host taken = .running r' ∧
      r'.state.frames.suppressed = true) (hw : world.Suits host r.state.vars) :
    (r.into world).run world.host steps = (r.run host steps).into world := by
  induction steps generalizing r with
  | zero => rfl
  | succ steps ih =>
    obtain ⟨r₀, h₀, hs₀⟩ := hs 0 (Nat.succ_pos steps)
    cases h₀
    rw [run_succ, run_succ, step_into hs₀ hw]
    cases hr : r.step host with
    | finished r' => rfl
    | failed e r' => rfl
    | running r' =>
      refine ih (fun taken hlt => ?_) ?_
      · obtain ⟨r₁, h₁, hs₁⟩ := hs (taken + 1) (Nat.succ_lt_succ hlt)
        rw [run_of_running hr] at h₁
        exact ⟨r₁, h₁, hs₁⟩
      · have hsame : (r.step host).rendering.world host = r.world host := world_step hs₀
        rw [hr] at hsame
        show world.host.grammar world.vars = host.grammar (r'.world host).vars
        rw [hw]
        exact congrArg (fun world : World κ => host.grammar world.vars) hsame.symm

/-! ### From a beginning -/

theorem Placed.step (h : r.Placed) (host : Host κ) : PlacedAfter (r.step host) := by
  obtain ⟨hsound, own, below, hnests⟩ := h
  have hafter := hnests.step (fun _ hp => hp) host
  have hreads := readsTo_meet host r
  cases hs : r.step host with
  | finished r' => trivial
  | failed e r' => trivial
  | running r' =>
    rw [hs] at hafter
    rw [step_eq] at hs
    refine ⟨?_, hafter.resolve_right fun hbase => List.cons_ne_nil _ _ hbase.1⟩
    cases hm : r.meet host with
    | token raw r₁ =>
      rw [hm] at hs hreads
      exact sound_act host raw (hreads.state_eq ▸ hsound) hs
    | ending r₁ =>
      rw [hm] at hs hreads
      exact sound_leave (hreads.state_eq ▸ hsound) hs
    | failure e r₁ =>
      rw [hm] at hs
      cases hs

theorem Placed.run (h : r.Placed) (host : Host κ) (steps : Nat) : PlacedAfter (r.run host steps) :=
  run_invariant (P := PlacedAfter) (fun _ h => h.step host) h steps

/-! ### No passage begins or ends -/

/-- A block that output is withheld for keeps its passage from ending. -/
theorem Placed.outer_step (h : r.Placed) (host : Host κ) (hs : r.state.frames.suppressed = true) :
    (r.step host).rendering.outer = r.outer := by
  obtain ⟨_, own, below, hnests⟩ := h
  have hreads := readsTo_meet host r
  rw [step_eq]
  cases hm : r.meet host with
  | token raw r₁ =>
    rw [hm] at hreads
    exact (outer_act host raw (hreads.state_eq ▸ hs)).trans hreads.outer_eq
  | ending r₁ =>
    rw [hm] at hreads
    have hnests₁ : r₁.Nests _ [] [] own below := hnests.readsTo hreads
    rcases leave_cases r₁ with ⟨e, he, _⟩ | ⟨hle, _⟩
    · show r₁.leave.rendering.outer = r.outer
      rw [he]
      exact hreads.outer_eq
    · rw [hnests₁.frames, hnests₁.opened, List.length_append] at hle
      have hnone : own = [] := List.eq_nil_of_length_eq_zero (by omega)
      rw [hnests.frames, hnone, List.nil_append, hnests.begun] at hs
      cases hs
  | failure e r₁ =>
    rw [hm] at hreads
    exact hreads.outer_eq

theorem Placed.outer_run {host : Host κ} {steps : Nat} (h : r.Placed)
    (hs : ∀ taken < steps, ∃ r', r.run host taken = .running r' ∧
      r'.state.frames.suppressed = true) : (r.run host steps).rendering.outer = r.outer := by
  induction steps generalizing r with
  | zero => rfl
  | succ steps ih =>
    obtain ⟨r₀, h₀, hs₀⟩ := hs 0 (Nat.succ_pos steps)
    cases h₀
    have hplaced := h.step host
    have houter := h.outer_step host hs₀
    rw [run_succ]
    cases hr : r.step host with
    | finished r' =>
      rw [hr] at houter
      exact houter
    | failed e r' =>
      rw [hr] at houter
      exact houter
    | running r' =>
      rw [hr] at hplaced houter
      refine (ih hplaced fun taken hlt => ?_).trans houter
      obtain ⟨r₁, h₁, hs₁⟩ := hs (taken + 1) (Nat.succ_lt_succ hlt)
      rw [run_of_running hr] at h₁
      exact ⟨r₁, h₁, hs₁⟩

/-! ### Until the block is closed -/

/-- As long as these steps take, the block stays open that output is withheld for, without its
`else`. -/
def StaysWithheld (host : Host κ) (steps : Nat) (cause : Frame) (below : Frames)
    (r : Rendering κ σ) : Prop :=
  ∀ taken < steps, ∃ r', r.run host taken = .running r' ∧ r'.state.frames.WithheldBy cause below

/-- What is true of steps that have no effect but on the blocks. -/
structure Inert (host : Host κ) (steps : Nat) (r : Rendering κ σ) : Prop where
  /-- Nothing is written, no variable is set or unset, and the callback remembers nothing new. -/
  world_eq : (r.run host steps).rendering.world host = r.world host
  /-- No value is rendered. -/
  outer_eq : (r.run host steps).rendering.outer = r.outer
  /-- Every token comes to nothing, unless it fails. -/
  ignores : ∀ taken < steps, ∀ r₁ raw r₂ token resolution state,
    r.run host taken = .running r₁ → r₁.meet host = .token raw r₂ →
    r₂.Resolves host raw token resolution state → resolution = .ignore
  /-- In any other world, the steps are the same, and fail in the same way. -/
  run_into : ∀ {κ' : Type} (world : World κ'), world.Suits host r.state.vars →
    (r.into world).run world.host steps = (r.run host steps).into world

theorem inert {host : Host κ} {steps : Nat} (h : r.Placed)
    (hs : ∀ taken < steps, ∃ r', r.run host taken = .running r' ∧
      r'.state.frames.suppressed = true) : r.Inert host steps where
  world_eq := by
    have hsuits : (r.world host).Suits host r.state.vars := rfl
    have hinto := run_into hs hsuits
    have hsame : r.run host steps = (r.run host steps).into (r.world host) := hinto
    rw [hsame]
    exact world_into _ (r.world host)
  outer_eq := h.outer_run hs
  ignores taken hlt r₁ raw r₂ token resolution state hr hm hres := by
    obtain ⟨r', hr', hs'⟩ := hs taken hlt
    cases hr.symm.trans hr'
    have hreads := readsTo_meet host r₁
    rw [hm] at hreads
    have hstate : r₂.state = r₁.state := hreads.state_eq
    refine Host.eq_ignore_of_suppressed (s := r₂.counted) hres.interpret ?_
    show r₂.state.frames.suppressed = true
    rw [hstate]
    exact hs'
  run_into world hw := Rendering.run_into hs hw

/-- **Parts that are not rendered are inert**: wherever a rendering can come to, if output is withheld
there, it is for a block around which it was not; and until that block, or another one that output is
withheld for, is closed or gets its `else`, all steps are inert. -/
theorem inert_of_suppressed {host : Host κ} {window : Window σ} {level taken : Nat}
    {state : RenderState κ} {pool : Pool} {sink : Sink} (hf : state.frames = [])
    (hr : (start window level state pool sink).run host taken = .running r)
    (hs : r.state.frames.suppressed = true) :
    (∃ cause below, r.state.frames.WithheldBy cause below ∧ below.suppressed = false) ∧
      ∀ cause below steps, r.StaysWithheld host steps cause below → r.Inert host steps := by
  have hplaced : r.Placed := by
    have := (placed_start window level pool sink hf).run host taken
    rwa [hr] at this
  refine ⟨hplaced.1.exists_cause hs, fun cause below steps hstays => inert hplaced ?_⟩
  intro taken hlt
  obtain ⟨r', hr', hcause⟩ := hstays taken hlt
  have hplaced' := hplaced.run host taken
  rw [hr'] at hplaced'
  exact ⟨r', hr', hplaced'.1.suppressed_iff.2 ⟨cause, below, hcause⟩⟩

/-- Behind a condition that does not hold. -/
theorem inert_behind_if :
    let host : Host Unit := {}
    let window : Window TextSource :=
      .fixed "{{if no}}a{{each x : v => v.f()}}{{x}}{{/each}}{{y}}{{/if}}".toList
    let state : RenderState Unit := { vars := .ofList [("y", .str "b")], memory := () }
    state.frames = [] ∧ ∃ r : Rendering Unit TextSource,
      (start window 0 state ⟨[], 4, 0⟩ {}).run host 1 = .running r ∧
      r.state.frames.suppressed = true ∧
      (∃ cause below, r.state.frames.WithheldBy cause below ∧ below.suppressed = false) ∧
      ∀ cause below steps, r.StaysWithheld host steps cause below → r.Inert host steps := by
  intro host window state
  have hwithheld : ((start window 0 state ⟨[], 4, 0⟩ {}).run host 1).withholds = true := by
    decide +kernel
  cases hr : (start window 0 state ⟨[], 4, 0⟩ {}).run host 1 with
  | running r =>
    rw [hr] at hwithheld
    exact ⟨rfl, r, rfl, hwithheld, inert_of_suppressed rfl hr hwithheld⟩
  | finished r =>
    rw [hr] at hwithheld
    cases hwithheld
  | failed e r =>
    rw [hr] at hwithheld
    cases hwithheld

end Rendering

end Stencil
