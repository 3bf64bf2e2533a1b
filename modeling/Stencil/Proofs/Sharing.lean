import Stencil.Renderer
import Stencil.Proofs.Accounting

/-! Sessions that share a pool.

Windows in somebody's hands and renderings under way may take their buffers from one pool, in turns. What
each of them does is in the books of the pool (`Session.Settled`), and what the others hold does not
matter to it, so the books are right after every event (`Shared.Balanced`). -/
namespace Stencil

open Pool (Balances)

/-! ### Sessions -/

/-- Where a text is read from. -/
inductive Opening (σ : Type) where
  /-- All of it is there. -/
  | text (text : List Char)
  /-- From a source, into buffers of a certain size. -/
  | source (source : σ) (size : Nat)

/-- The window that a text is read through. -/
def Opening.window {σ : Type} : Opening σ → Window σ
  | text cs => .fixed cs
  | source chars size => .streaming chars size

/-- A window that was not used yet holds nothing. -/
theorem Opening.held_window {σ : Type} (opening : Opening σ) : opening.window.held = 0 := by
  cases opening <;> rfl

inductive Session : Type 1 where
  /-- A window in somebody's hands. -/
  | manual {σ : Type} [CharSource σ] (window : Window σ)
  | rendering {κ σ : Type} [CharSource σ] (host : Host κ) (r : Rendering κ σ)

namespace Session

def held : Session → Nat
  | manual window => window.held
  | rendering _ r => r.held

/-- Only the outermost passage of a rendering is read from a source. -/
def NestsFixed : Session → Prop
  | manual _ => True
  | rendering _ r => r.NestsFixed

/-- Give everything back. What is left of a rendering is its window. -/
def release (pool : Pool) : Session → Session × Pool
  | manual window => (manual (window.release pool).1, (window.release pool).2)
  | rendering _ r =>
    (manual (r.outermost.window.release pool).1, (r.outermost.window.release pool).2)

/-- Use the window, if it is in somebody's hands. -/
def use (use : Window.Use) (pool : Pool) : Session → Session × Pool
  | manual window => (manual (use.after (window, pool)).1, (use.after (window, pool)).2)
  | rendering host r => (rendering host r, pool)

/-- Go on to behind the next token, if this is a rendering. When it is over, however it ended,
everything is given back. -/
def step (pool : Pool) : Session → Session × Pool
  | manual window => (manual window, pool)
  | rendering host r =>
    match ({ r with pool } : Rendering _ _).step host with
    | .running r => (rendering host r, r.pool)
    | .finished r => (rendering host r).release r.pool
    | .failed _ r => (rendering host r).release r.pool

/-- What a session did is in the books. -/
structure Settled (session : Session) (pool : Pool) (after : Session × Pool) : Prop
    extends Balances session.held pool after.1.held after.2 where
  nestsFixed : session.NestsFixed → after.1.NestsFixed

theorem held_release (session : Session) (pool : Pool) : (session.release pool).1.held = 0 := by
  cases session with
  | manual window => exact window.held_release pool
  | rendering host r => exact r.outermost.window.held_release pool

theorem settled_release {session : Session} (h : session.NestsFixed) (pool : Pool) :
    session.Settled pool (session.release pool) := by
  cases session with
  | manual window => exact ⟨(window.settled_release pool).toBalances, id⟩
  | rendering host r =>
    have hb := (r.outermost.window.settled_release pool).toBalances
    rw [← Rendering.NestsFixed.held_eq h] at hb
    exact ⟨hb, fun _ => trivial⟩

theorem settled_use (session : Session) (use : Window.Use) (pool : Pool) :
    session.Settled pool (session.use use pool) := by
  cases session with
  | manual window => exact ⟨(Window.settled_after (window, pool) use).toBalances, id⟩
  | rendering host r => exact ⟨.refl _ _, id⟩

theorem settled_step {session : Session} (h : session.NestsFixed) (pool : Pool) :
    session.Settled pool (session.step pool) := by
  cases session with
  | manual window => exact ⟨.refl _ _, id⟩
  | @rendering κ σ _ host r =>
    have hs := Rendering.settled_step host (r := { r with pool }) h
    have hn := hs.nestsFixed h
    have hb : Balances r.held pool _ _ := hs.toBalances
    have hrelease : ∀ r' : Rendering κ σ, r'.NestsFixed → Balances r'.held r'.pool
        ((rendering host r').release r'.pool).1.held ((rendering host r').release r'.pool).2 :=
      fun r' hn => (settled_release (show (rendering host r').NestsFixed from hn) r'.pool).toBalances
    simp only [step]
    cases hstep : ({ r with pool } : Rendering _ _).step host with
    | running r' =>
      rw [hstep] at hn hb
      exact ⟨hb, fun _ => hn⟩
    | finished r' =>
      rw [hstep] at hn hb
      exact ⟨hb.trans (hrelease r' hn), fun _ => trivial⟩
    | failed e r' =>
      rw [hstep] at hn hb
      exact ⟨hb.trans (hrelease r' hn), fun _ => trivial⟩

end Session

/-! ### Events -/

/-- A pool and the sessions that share it. -/
structure Shared : Type 1 where
  pool : Pool
  sessions : List Session := []

namespace Shared

/-- A pool that nobody uses yet. -/
def fresh (maxIdle : Nat) : Shared :=
  { pool := { maxIdle } }

/-- What can happen. Sessions are told by their place in the list. -/
inductive Event : Type 1 where
  /-- Somebody opens a window. -/
  | manual {σ : Type} [CharSource σ] (opening : Opening σ)
  | rendering {κ σ : Type} [CharSource σ] (host : Host κ) (opening : Opening σ) (vars : Variables)
      (memory : κ) (sink : Sink)
  /-- Somebody uses a window. -/
  | use (index : Nat) (use : Window.Use)
  | step (index : Nat)
  /-- A session is dropped, whatever has become of it. -/
  | drop (index : Nat)

/-- Let a session do something, if it is there. -/
def act (s : Shared) (index : Nat) (deed : Session → Session × Pool) : Shared :=
  match s.sessions[index]? with
  | none => s
  | some session =>
    { pool := (deed session).2, sessions := s.sessions.set index (deed session).1 }

def after (s : Shared) : Event → Shared
  | @Event.manual σ _ opening =>
    let window : Window σ := opening.window
    { s with sessions := .manual window :: s.sessions }
  | @Event.rendering κ σ _ host opening vars memory sink =>
    let r : Rendering κ σ := .start opening.window 0 { vars, memory } s.pool sink
    { s with sessions := .rendering host r :: s.sessions }
  | .use index use => s.act index (Session.use use s.pool)
  | .step index => s.act index (Session.step s.pool)
  | .drop index =>
    { s.act index (Session.release s.pool) with sessions := s.sessions.eraseIdx index }

def afterAll (s : Shared) (events : List Event) : Shared :=
  events.foldl after s

def heldBy (sessions : List Session) : Nat :=
  (sessions.map Session.held).sum

theorem heldBy_insert (before after : List Session) (session : Session) :
    heldBy (before ++ session :: after) = session.held + heldBy (before ++ after) := by
  simp only [heldBy, List.map_append, List.map_cons, List.sum_append, List.sum_cons]
  omega

/-- The sessions around one of them. -/
theorem exists_around {sessions : List Session} {index : Nat} {session : Session}
    (h : sessions[index]? = some session) :
    ∃ before after, sessions = before ++ session :: after ∧
      (∀ other, sessions.set index other = before ++ other :: after) ∧
      sessions.eraseIdx index = before ++ after := by
  obtain ⟨hlt, hget⟩ := List.getElem?_eq_some_iff.1 h
  refine ⟨sessions.take index, sessions.drop (index + 1), ?_, fun other => ?_, ?_⟩
  · rw [← hget, List.getElem_cons_drop, List.take_append_drop]
  · rw [List.set_eq_take_append_cons_drop, if_pos hlt]
  · exact List.eraseIdx_eq_take_drop_succ ..

/-- The books are right: the pool counts what the sessions hold. -/
structure Balanced (limit : Nat) (s : Shared) : Prop where
  outstanding : s.pool.outstanding = heldBy s.sessions
  maxIdle : s.pool.maxIdle = limit
  idle : s.pool.idle ≤ limit
  nestsFixed : ∀ session ∈ s.sessions, session.NestsFixed

namespace Balanced
variable {limit : Nat} {s : Shared}

theorem fresh (limit : Nat) : (Shared.fresh limit).Balanced limit :=
  ⟨rfl, rfl, Nat.zero_le _, fun _ hm => absurd hm List.not_mem_nil⟩

/-- A session that begins holds nothing. -/
theorem cons (h : s.Balanced limit) {session : Session} (h0 : session.held = 0)
    (hn : session.NestsFixed) :
    ({ s with sessions := session :: s.sessions } : Shared).Balanced limit where
  outstanding := by
    show s.pool.outstanding = session.held + heldBy s.sessions
    rw [h0, Nat.zero_add, h.outstanding]
  maxIdle := h.maxIdle
  idle := h.idle
  nestsFixed := by
    intro other hm
    rcases List.mem_cons.1 hm with rfl | hm
    · exact hn
    · exact h.nestsFixed other hm

/-- What one session does in the midst of the others. -/
theorem act_around (h : s.Balanced limit) {session : Session} {before after : List Session}
    {done : Session × Pool} (hs : s.sessions = before ++ session :: after)
    (hd : session.Settled s.pool done) :
    ({ pool := done.2, sessions := before ++ done.1 :: after } : Shared).Balanced limit where
  outstanding := by
    have hout := h.outstanding
    rw [hs, heldBy_insert] at hout
    have := (hd.toBalances.frame (heldBy (before ++ after))).outstanding (Nat.le_of_eq hout.symm)
    show done.2.outstanding = heldBy (before ++ done.1 :: after)
    rw [heldBy_insert]
    omega
  maxIdle := hd.maxIdle.trans h.maxIdle
  idle := h.maxIdle ▸ hd.idle (h.maxIdle.symm ▸ h.idle)
  nestsFixed := by
    intro other hm
    rcases List.mem_append.1 hm with hm | hm
    · exact h.nestsFixed other (hs ▸ List.mem_append_left _ hm)
    · rcases List.mem_cons.1 hm with rfl | hm
      · exact hd.nestsFixed (h.nestsFixed session (hs ▸ List.mem_append_right _ List.mem_cons_self))
      · exact h.nestsFixed other
          (hs ▸ List.mem_append_right _ (List.mem_cons_of_mem _ hm))

theorem act (h : s.Balanced limit) (index : Nat) {deed : Session → Session × Pool}
    (hd : ∀ session ∈ s.sessions, session.Settled s.pool (deed session)) :
    (s.act index deed).Balanced limit := by
  unfold Shared.act
  cases hi : s.sessions[index]? with
  | none => exact h
  | some session =>
    obtain ⟨before, after, hs, hset, _⟩ := exists_around hi
    dsimp only
    rw [hset]
    exact h.act_around hs (hd session (hs ▸ List.mem_append_right _ List.mem_cons_self))

/-- A session that gave everything back can go. -/
theorem drop (h : s.Balanced limit) (index : Nat) :
    (s.after (.drop index)).Balanced limit := by
  have hrelease : (s.act index (Session.release s.pool)).Balanced limit := h.act index
    fun session hm => Session.settled_release (h.nestsFixed session hm) s.pool
  show ({ s.act index (Session.release s.pool) with
    sessions := s.sessions.eraseIdx index } : Shared).Balanced limit
  unfold Shared.act at hrelease ⊢
  cases hi : s.sessions[index]? with
  | none =>
    have hle := List.getElem?_eq_none_iff.1 hi
    rw [List.eraseIdx_of_length_le hle]
    exact h
  | some session =>
    obtain ⟨before, after, hs, hset, herase⟩ := exists_around hi
    rw [hi] at hrelease
    dsimp only at hrelease ⊢
    rw [hset] at hrelease
    rw [herase]
    refine ⟨?_, hrelease.maxIdle, hrelease.idle, fun other hm => h.nestsFixed other ?_⟩
    · have hout := hrelease.outstanding
      rw [heldBy_insert, session.held_release, Nat.zero_add] at hout
      exact hout
    · rw [hs]
      rcases List.mem_append.1 hm with hm | hm
      · exact List.mem_append_left _ hm
      · exact List.mem_append_right _ (List.mem_cons_of_mem _ hm)

theorem after (h : s.Balanced limit) (event : Event) : (s.after event).Balanced limit := by
  cases event with
  | manual opening => exact h.cons opening.held_window trivial
  | rendering host opening vars memory sink => exact h.cons opening.held_window nofun
  | use index use => exact h.act index fun session _ => session.settled_use use s.pool
  | step index =>
    exact h.act index fun session hm => Session.settled_step (h.nestsFixed session hm) s.pool
  | drop index => exact h.drop index

theorem afterAll (h : s.Balanced limit) (events : List Event) :
    (s.afterAll events).Balanced limit := by
  induction events generalizing s with
  | nil => exact h
  | cons event events ih => exact ih (h.after event)

end Balanced

/-! ### The accounts -/

/-- A whole rendering gives back what it took. -/
theorem balances_render {κ σ : Type} [CharSource σ] {renderer : Renderer κ} {steps : Nat}
    {opening : Opening σ} {vars : Variables} {memory : κ} {pool : Pool} {sink : Sink}
    {rendered : Rendered κ}
    (h : renderer.render steps opening.window vars memory pool sink = some rendered) :
    Balances 0 pool 0 rendered.pool := by
  let r : Rendering κ σ := .start opening.window 0 { vars, memory } pool sink
  have hr : r.held = 0 := opening.held_window
  obtain ⟨hn, hb⟩ := Rendering.balances_run renderer.host (r := r) nofun steps
  rw [hr] at hb
  have hreleased : ∀ r' : Rendering κ σ, r'.NestsFixed → Balances 0 pool r'.held r'.pool →
      Balances 0 pool 0 r'.released := by
    intro r' hn hb
    have hs := (r'.outermost.window.settled_release r'.pool).toBalances
    rw [← hn.held_eq, Window.held_release] at hs
    exact hb.trans hs
  unfold Renderer.render at h
  change Rendered.ofProgress? (r.run renderer.host steps) = some rendered at h
  cases hrun : r.run renderer.host steps with
  | running r' =>
    rw [hrun] at h
    cases h
  | finished r' =>
    rw [hrun] at h hn hb
    cases h
    exact hreleased r' hn hb
  | failed e r' =>
    rw [hrun] at h hn hb
    cases h
    exact hreleased r' hn hb

/-- What the pool and the sessions that share it keep to. -/
structure Accounts (limit : Nat) (s : Shared) : Prop where
  /-- The buffers in use are the segments of the windows over sources. -/
  outstanding : s.pool.outstanding = heldBy s.sessions
  idle : s.pool.idle ≤ limit
  /-- A buffer that is taken has the size that was asked for. -/
  size_checkOut : ∀ size, (s.pool.checkOut size).1.size = size
  /-- A window on all of a text leaves the pool alone, whatever is done with it. -/
  manual_fixed : ∀ {σ : Type} [CharSource σ] (window : Window σ),
    .manual window ∈ s.sessions → window.isFixed = true →
    ∀ use : Window.Use, (use.after (window, s.pool)).2 = s.pool
  /-- So does a rendering while it reads such a text. -/
  rendering_fixed : ∀ {κ σ : Type} [CharSource σ] (host : Host κ) (r : Rendering κ σ),
    .rendering host r ∈ s.sessions → r.passage.window.isFixed = true →
    (({ r with pool := s.pool } : Rendering κ σ).step host).rendering.pool = s.pool
  /-- The values nested in a template are such texts: nothing is held for them. -/
  rendering_nested : ∀ {κ σ : Type} [CharSource σ] (host : Host κ) (r : Rendering κ σ),
    .rendering host r ∈ s.sessions →
    (r.outer ≠ [] → r.passage.window.isFixed = true) ∧ r.held = r.outermost.window.held
  /-- A session that gives everything back holds nothing, and its buffers are in use no more. -/
  released : ∀ session ∈ s.sessions, (session.release s.pool).1.held = 0 ∧
    (session.release s.pool).2.outstanding + session.held = s.pool.outstanding
  /-- A whole rendering leaves as many buffers in use as it found, however it ends. -/
  rendered : ∀ {κ σ : Type} [CharSource σ] (renderer : Renderer κ) (steps : Nat)
    (opening : Opening σ) (vars : Variables) (memory : κ) (sink : Sink) (rendered : Rendered κ),
    renderer.render steps opening.window vars memory s.pool sink = some rendered →
    rendered.pool.outstanding = s.pool.outstanding ∧ rendered.pool.idle ≤ limit

theorem Balanced.accounts {limit : Nat} {s : Shared} (h : s.Balanced limit) : s.Accounts limit where
  outstanding := h.outstanding
  idle := h.idle
  size_checkOut := s.pool.size_checkOut
  manual_fixed window _ hf use := (Window.settled_after (window, s.pool) use).pool_eq hf
  rendering_fixed host r hm hf :=
    (Rendering.settled_step host (r := { r with pool := s.pool }) (h.nestsFixed _ hm)).pool_eq hf
  rendering_nested host r hm :=
    have hn : r.NestsFixed := h.nestsFixed _ hm
    ⟨hn.of_outer, hn.held_eq⟩
  released session hm := by
    obtain ⟨before, after, hs⟩ := List.append_of_mem hm
    have hheld : session.held ≤ s.pool.outstanding := by
      rw [h.outstanding, hs, heldBy_insert]
      exact Nat.le_add_right ..
    have hb := (Session.settled_release (h.nestsFixed session hm) s.pool).outstanding hheld
    rw [session.held_release] at hb
    exact ⟨session.held_release s.pool, hb⟩
  rendered renderer steps opening vars memory sink rendered hr := by
    have hb := balances_render hr
    exact ⟨hb.outstanding (Nat.zero_le _), h.maxIdle ▸ hb.idle (h.maxIdle.symm ▸ h.idle)⟩

/-- **The pool counts the segments**: after anything that sessions did with a pool that they share, in any
order and with any outcome, as many buffers are in use as the windows over sources have segments, and no
more wait than may. -/
theorem accounts_of_events (limit : Nat) (events : List Event) :
    ((fresh limit).afterAll events).Accounts limit :=
  ((Balanced.fresh limit).afterAll events).accounts

/-- A window in a loop with two segments, next to another with one. -/
example :
    ((fresh 2).afterAll [.manual (.source (⟨['a', 'b']⟩ : TextSource) 1),
      .manual (.source (⟨['c']⟩ : TextSource) 1), .use 0 .openLoop, .use 0 .span, .use 1 .span,
      .use 0 (.advance 1), .use 0 .span]).pool.outstanding = 3 := by
  decide +kernel

end Shared

end Stencil
