import Stencil.Render.Interpret
import Stencil.Sink
import Stencil.Text.Search
import Stencil.Window

/-! A rendering, from token to token.

A passage is a text that is being rendered: the template, or a value with tokens in it. A token may
begin a new passage, which is rendered to its end before the one it stands in goes on. All passages
share the open blocks, the variables and the sink; a block must be closed in the passage that it was
opened in. -/
namespace Stencil

structure Passage (σ : Type) where
  /-- How deep in nested values it stands. -/
  level : Nat
  window : Window σ
  /-- How many blocks were open when it began. -/
  opened : Nat := 0
  /-- The token that it is the value of. -/
  within : Option Nat := none

/-- A rendering under way. -/
structure Rendering (κ σ : Type) where
  /-- The passage that is read now. -/
  passage : Passage σ
  /-- The passages that it stands in, innermost first. -/
  outer : List (Passage σ) := []
  state : RenderState κ
  /-- Where buffers come from. -/
  pool : Pool
  sink : Sink := {}

/-- How far a rendering has come. -/
inductive Progress (κ σ : Type) where
  | running (r : Rendering κ σ)
  | finished (r : Rendering κ σ)
  | failed (error : RenderError) (r : Rendering κ σ)

def Progress.rendering {κ σ : Type} : Progress κ σ → Rendering κ σ
  | running r => r
  | finished r => r
  | failed _ r => r

namespace Rendering
variable {κ σ : Type}

/-- The passage that the others stand in. -/
def outermost (r : Rendering κ σ) : Passage σ :=
  r.outer.getLast?.getD r.passage

def withWindow (r : Rendering κ σ) (window : Window σ) : Rendering κ σ :=
  { r with passage := { r.passage with window } }

def advance (r : Rendering κ σ) (count : Nat) : Rendering κ σ :=
  r.withWindow (r.passage.window.advance count)

/-- The next characters of the passage; none at its end. -/
def span [CharSource σ] (r : Rendering κ σ) : Except RenderError (List Char) × Rendering κ σ :=
  let (result, window, pool) := r.passage.window.span r.pool
  (result, { r.withWindow window with pool })

def write (r : Rendering κ σ) (text : List Char) : Except RenderError Unit × Rendering κ σ :=
  let (result, sink) := r.sink.write text
  (result, { r with sink })

/-- Write literal text, unless it stands in a part that is not rendered. -/
def writeLiteral (r : Rendering κ σ) (text : List Char) :
    Except RenderError Unit × Rendering κ σ :=
  if r.state.frames.suppressed then (.ok (), r) else r.write text

/-! ### Reading a passage -/

theorem window_writeLiteral (r : Rendering κ σ) (text : List Char) :
    (r.writeLiteral text).2.passage = r.passage := by
  unfold writeLiteral
  split <;> rfl

/-- Whatever is read of the next characters, fewer are left. -/
theorem ahead_of_span [CharSource σ] {r r' : Rendering κ σ} {c : Char} {cs : List Char}
    (h : r.span = (.ok (c :: cs), r')) {count : Nat} (hc : 0 < count) :
    (r'.passage.window.advance count).ahead < r.passage.window.ahead := by
  have hw : r'.passage.window = (r.passage.window.span r.pool).2.1 :=
    (congrArg (·.2.passage.window) h).symm
  have hs : (r.passage.window.span r.pool).1 = .ok (c :: cs) := congrArg Prod.fst h
  rw [hw]
  exact Nat.lt_of_lt_of_le
    (Window.ahead_advance_lt hc (Window.exists_holds_of_span _ _ hs)) (Window.ahead_span_le _ _)

/-- Write the literal text up to the next left delimiter. False means that there is none; then the
passage is at its end. What may be the beginning of a delimiter is held back. -/
def passText [CharSource σ] (scan : TextScan) (r : Rendering κ σ) :
    Except RenderError Bool × Rendering κ σ :=
  match _h : r.span with
  | (.error e, r) => (.error e, r)
  | (.ok [], r) =>
    match r.writeLiteral (scan.take 0).1 with
    | (.error e, r) => (.error e, r)
    | (.ok (), r) => (.ok false, r)
  | (.ok (c :: cs), r') =>
    let scanned := scan.scan (c :: cs)
    let r' := r'.advance scanned.consumed
    if scanned.found then
      match r'.writeLiteral (scanned.scan.take 0).1 with
      | (.error e, r) => (.error e, r)
      | (.ok (), r) => (.ok true, r)
    else
      let taken := scanned.scan.take scanned.scan.left.matched
      match _hw : r'.writeLiteral taken.1 with
      | (.error e, r) => (.error e, r)
      | (.ok (), r) => passText taken.2 r
termination_by r.passage.window.ahead
decreasing_by
  have hp := window_writeLiteral r' taken.1
  rw [_hw] at hp
  rw [hp]
  exact ahead_of_span _h (consumed_scanWith_pos _ _ _ _)

/-- Read the rest of a token, up to the right delimiter that closes it. None means that there is
none. -/
def readToken [CharSource σ] (scan : CloseScan) (r : Rendering κ σ) :
    Except RenderError (Option (List Char)) × Rendering κ σ :=
  match _h : r.span with
  | (.error e, r) => (.error e, r)
  | (.ok [], r) => (.ok none, r)
  | (.ok (c :: cs), r') =>
    let scanned := scan.scan (c :: cs)
    let r' := r'.advance scanned.consumed
    if scanned.found then (.ok (some scanned.scan.text), r')
    else readToken scanned.scan r'
termination_by r.passage.window.ahead
decreasing_by exact ahead_of_span _h (consumed_scanWith_pos _ _ _ _)

/-! ### Acting on tokens -/

/-- What the window on a passage needs to know of a token: an open loop has to be kept at hand. -/
def followLoop (r : Rendering κ σ) (kind : Token.Kind) (action : Action) : Rendering κ σ :=
  let window := r.passage.window
  if kind.isLoop then r.withWindow window.openLoop
  else if kind.isLoopClose ∧ action ≠ .again then
    let (window, pool) := window.closeLoop r.pool
    { r.withWindow window with pool }
  else r

/-- Go back to the beginning of the innermost block. -/
def replay (r : Rendering κ σ) (id : Nat) : Progress κ σ :=
  match r.state.frames.head?.bind (·.resume) with
  | none => .failed (.token id .noResume) r
  | some offset =>
    match r.passage.window.seek offset with
    | .error e => .failed e r
    | .ok window => .running (r.withWindow window)

/-- Begin a passage on the value of a token. -/
def enter (r : Rendering κ σ) (value : List Char) (id : Nat) : Rendering κ σ :=
  { r with
    passage :=
      { level := r.passage.level + 1
        window := .fixed value
        opened := r.state.frames.length
        within := some id }
    outer := r.passage :: r.outer }

/-- Write a text and go on. -/
def emit (r : Rendering κ σ) (text : List Char) : Progress κ σ :=
  match r.write text with
  | (.ok (), r) => .running r
  | (.error e, r) => .failed e r

/-- Write the value of a token. A value with left delimiters in it is a passage of its own. -/
def expand (host : Host κ) (r : Rendering κ σ) (value : List Char) (id : Nat) : Progress κ σ :=
  if Text.contains host.left value then
    if host.options.maxDepth < r.passage.level + 1 then
      .failed (.recursionLimit host.options.maxDepth id) r
    else .running (r.enter value id)
  else r.emit value

/-- The marker that stands in for a missing value. -/
def marker (host : Host κ) (id : Nat) (message : String) : List Char :=
  host.left ++ s!"Error ({id}):{message}".toList ++ host.right

/-- Do what a token was resolved to. -/
def carryOut (host : Host κ) (r : Rendering κ σ) (id : Nat) (resolution : Resolution) :
    Progress κ σ :=
  match resolution.action with
  | .again => r.replay id
  | .ignore => .running r
  | .mark => r.emit (marker host id (resolution.value.getD ""))
  | .replace =>
    match resolution.value with
    | some value => expand host r value.toList id
    | none => .running r

/-- What is carried along, after one more token was met. -/
def counted (r : Rendering κ σ) : RenderState κ :=
  { r.state with
    tokens := r.state.tokens + 1
    position :=
      if r.passage.level = 0 then r.passage.window.cursor else r.state.position }

/-- Act on the token whose text was just read. -/
def act (host : Host κ) (r : Rendering κ σ) (text : List Char) : Progress κ σ :=
  let state := r.counted
  match (host.grammar state.vars).classify state.tokens text with
  | .error e => .failed e { r with state }
  | .ok token =>
    match host.interpret token r.passage.level r.passage.window.cursor state with
    | (.error e, state) => .failed e { r with state }
    | (.ok resolution, state) =>
      carryOut host (({ r with state } : Rendering κ σ).followLoop token.kind resolution.action)
        token.id resolution

/-- Leave a passage at its end, and go on with the one that it stands in. -/
def leave (r : Rendering κ σ) : Progress κ σ :=
  match r.state.frames with
  | top :: below =>
    if r.passage.opened < below.length + 1 then
      .failed (.unterminatedBlock top.kind top.token.id) r
    else done
  | [] => done
where
  /-- The passage before it, if there is one. -/
  done : Progress κ σ :=
    match r.outer with
    | [] => .finished r
    | passage :: outer => .running { r with passage, outer }

/-- The search for the next token of a passage. The template itself is taken as it stands; in a
value a backslash makes a delimiter literal. -/
def textScan (host : Host κ) (level : Nat) : TextScan :=
  if level = 0 then .plain host.left else .escaping host.left

/-- Go on to behind the next token. -/
def step [CharSource σ] (host : Host κ) (r : Rendering κ σ) : Progress κ σ :=
  match r.passText (textScan host r.passage.level) with
  | (.error e, r) => .failed e r
  | (.ok false, r) => r.leave
  | (.ok true, r) =>
    let offset := r.passage.window.cursor - host.left.length
    match r.readToken (.start host.left host.right) with
    | (.error e, r) => .failed e r
    | (.ok none, r) => .failed (.unterminatedToken offset r.passage.within) r
    | (.ok (some text), r) => act host r text

/-- Go on for at most so many steps. -/
def run [CharSource σ] (host : Host κ) : (steps : Nat) → Rendering κ σ → Progress κ σ
  | 0, r => .running r
  | steps + 1, r =>
    match r.step host with
    | .running r => run host steps r
    | progress => progress

end Rendering

end Stencil
