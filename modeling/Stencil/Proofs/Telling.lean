import Stencil.Proofs.Delivery
import Stencil.Proofs.Meaning

/-! What a rendering tells, step by step.

A rendering that has all of its passage stands in front of the pieces that are left of it
(`Rendering.Stands`). Literal text is written on the way to the next piece, a token is acted on, and at
the end of the pieces the passage is left. `Rendering.Does` says that a rendering does what an effect
comes to, and how that is put together: `Does.bind` for one after the other. -/
namespace Stencil

/-! ### Effects -/

namespace Effect
variable {α β : Type}

/-- One effect after the other. -/
theorem bind_apply (x : Effect α) (f : α → Effect β) (t : Told) :
    (x >>= f) t =
      match x t with
      | none => none
      | some (.ok a, t) => f a t
      | some (.error e, t) => some (.error e, t) := by
  show Option.bind (x t) _ = _
  rcases x t with _ | ⟨_ | a, t'⟩
  · rfl
  · rfl
  · rfl

theorem token_apply (t : Told) :
    token t = some (.ok (t.tokens + 1), { t with tokens := t.tokens + 1 }) := rfl

theorem consult_apply (f : Variables → Except RenderError α) (t : Told) :
    consult f t = some (f t.vars, t) := by
  show (ofExcept (f t.vars) : Effect α) t = _
  cases f t.vars with
  | ok a => rfl
  | error e => rfl

end Effect

namespace Host
variable {κ : Type} (host : Host κ) (t : Told)

theorem ask_apply (live : Bool) (condition : Token.Condition) :
    host.ask live condition t =
      some (((if live then host.decide (t.tokens + 1) t.vars condition else .ok false).map
        (t.tokens + 1, ·)), { t with tokens := t.tokens + 1 }) := by
  unfold ask
  cases live with
  | false => rfl
  | true =>
    simp only [Effect.bind_apply, Effect.token_apply, Effect.consult_apply, if_true]
    cases host.decide (t.tokens + 1) t.vars condition with
    | ok holds => rfl
    | error e => rfl

theorem askAgain_apply (holds : Bool) (id : Nat) (condition : Token.Condition) :
    host.askAgain holds id condition t =
      some (if holds then host.decide id t.vars condition else .ok false,
        { t with tokens := t.tokens + 1 }) := by
  unfold askAgain
  cases holds with
  | false => rfl
  | true => simp only [Effect.bind_apply, Effect.token_apply, Effect.consult_apply, if_true]

theorem gather_apply (live : Bool) (sequence : String) :
    host.gather live sequence t =
      some (((if live then (host.evaluate (t.tokens + 1) t.vars sequence).map itemsOf
        else .ok []).map (t.tokens + 1, ·)), { t with tokens := t.tokens + 1 }) := by
  unfold gather
  cases live with
  | false => rfl
  | true =>
    simp only [Effect.bind_apply, Effect.token_apply, Effect.consult_apply, if_true]
    cases host.evaluate (t.tokens + 1) t.vars sequence with
    | ok value => rfl
    | error e => rfl

theorem defineName_apply (live : Bool) (name : String) (meaning : Token.Meaning) :
    host.defineName live name meaning t =
      some (if live then
          match host.defined (t.tokens + 1) t.vars meaning with
          | .ok value => (.ok (), ⟨t.text, t.vars.set name value, t.tokens + 1⟩)
          | .error e => (.error e, { t with tokens := t.tokens + 1 })
        else (.ok (), { t with tokens := t.tokens + 1 })) := by
  unfold defineName
  cases live with
  | false => rfl
  | true =>
    simp only [Effect.bind_apply, Effect.token_apply, Effect.consult_apply, if_true]
    cases host.defined (t.tokens + 1) t.vars meaning with
    | ok value => rfl
    | error e => rfl

theorem writeValue_apply (expand : Nat → List Char → Effect Unit) (id : Nat)
    (directive : Token.Directive) :
    host.writeValue expand id directive t =
      match host.resolve t.vars directive with
      | .ok value =>
        (if Text.contains host.left value.display.toList then expand id value.display.toList
          else Effect.write value.display.toList) t
      | .error missing =>
        match host.options.missing with
        | .ignore => some (.ok (), t)
        | .mark => Effect.write (Rendering.marker host id missing.message) t := by
  show (match host.resolve t.vars directive with
    | .ok value => _
    | .error missing => _ : Effect Unit) t = _
  cases host.resolve t.vars directive with
  | ok value => rfl
  | error missing =>
    dsimp only
    cases host.options.missing with
    | ignore => rfl
    | mark => rfl

end Host

/-! ### Coming to the same -/

def Rendering.told {κ σ : Type} (r : Rendering κ σ) : Told :=
  ⟨r.sink.text, r.state.vars, r.state.tokens⟩

/-- What is told of a rendering that came to an end, and how it did. -/
def Progress.told {κ σ : Type} : Progress κ σ → Option (Except RenderError Unit × Told)
  | running _ => none
  | finished r => some (.ok (), r.told)
  | failed e r => some (.error e, r.told)

namespace Rendering
variable {κ σ : Type} [CharSource σ] {host : Host κ} {r r' r'' : Rendering κ σ}

theorem run_succ (host : Host κ) (r : Rendering κ σ) (steps : Nat) :
    r.run host (steps + 1) =
      match r.step host with
      | .running r => r.run host steps
      | progress => progress := rfl

theorem run_of_running (h : r.step host = .running r') (steps : Nat) :
    r.run host (steps + 1) = r'.run host steps := by
  rw [run_succ, h]

/-- What is told at the end is told of the step. -/
theorem run_of_told {out : Except RenderError Unit × Told} (h : (r.step host).told = some out)
    (steps : Nat) : (r.run host (steps + 1)).told = some out := by
  rw [run_succ]
  cases hs : r.step host with
  | running r' =>
    rw [hs] at h
    cases h
  | finished r' => rw [← h, hs]
  | failed e r' => rw [← h, hs]

/-- What is told at the end is told of every longer run. -/
theorem run_of_le {out : Except RenderError Unit × Told} {steps steps' : Nat}
    (h : (r.run host steps).told = some out) (hle : steps ≤ steps') :
    (r.run host steps').told = some out := by
  induction steps generalizing r steps' with
  | zero => cases h
  | succ steps ih =>
    cases steps' with
    | zero => cases hle
    | succ steps' =>
      rw [run_succ] at h ⊢
      cases hs : r.step host with
      | running r' =>
        rw [hs] at h
        exact ih h (Nat.le_of_succ_le_succ hle)
      | finished r' =>
        rw [hs] at h
        exact h
      | failed e r' =>
        rw [hs] at h
        exact h

/-- What `r` comes to is what `r'` comes to, some steps later. -/
def Leads (host : Host κ) (r r' : Rendering κ σ) : Prop :=
  ∃ count, ∀ steps, (r.run host (count + steps + 1)).told = (r'.run host (steps + 1)).told

namespace Leads

theorem refl (host : Host κ) (r : Rendering κ σ) : r.Leads host r :=
  ⟨0, fun steps => by rw [Nat.zero_add]⟩

theorem trans (h : r.Leads host r') (h' : r'.Leads host r'') : r.Leads host r'' := by
  obtain ⟨count, h⟩ := h
  obtain ⟨count', h'⟩ := h'
  refine ⟨count + count', fun steps => ?_⟩
  rw [Nat.add_assoc count, h, h']

theorem of_running (h : r.step host = .running r') : r.Leads host r' :=
  ⟨1, fun steps => by rw [Nat.add_comm 1, run_of_running h]⟩

/-- Where the next steps are the same. -/
theorem of_step (h : r.step host = r'.step host) : r.Leads host r' := by
  refine ⟨0, fun steps => ?_⟩
  rw [Nat.zero_add, run_succ, run_succ, h]

end Leads

variable {α β : Type}

/-- The rendering does what an effect comes to: it goes on to where `Q` holds, or fails in the same
way; where more rounds are needed than there may be, it still goes on after `bound` steps. -/
inductive Does (host : Host κ) (bound : Nat) (r : Rendering κ σ)
    (Q : α → Told → Rendering κ σ → Prop) : Option (Except RenderError α × Told) → Prop
  | goes {a : α} {t : Told} {r' : Rendering κ σ} (h : r.Leads host r') (hq : Q a t r') :
      Does host bound r Q (some (.ok a, t))
  | fails {e : RenderError} {t : Told} (steps : Nat)
      (h : (r.run host steps).told = some (.error e, t)) : Does host bound r Q (some (.error e, t))
  | lasts (steps : Nat) (hs : bound ≤ steps) (h : (r.run host steps).told = none) :
      Does host bound r Q none

/-- The rendering does in one step what an effect comes to. -/
inductive DoesNext (host : Host κ) (r : Rendering κ σ) (Q : α → Told → Rendering κ σ → Prop) :
    Option (Except RenderError α × Told) → Prop
  | goes {a : α} {t : Told} {r' : Rendering κ σ} (h : r.step host = .running r') (hq : Q a t r') :
      DoesNext host r Q (some (.ok a, t))
  | fails {e : RenderError} {t : Told} (h : (r.step host).told = some (.error e, t)) :
      DoesNext host r Q (some (.error e, t))

variable {bound : Nat} {Q : α → Told → Rendering κ σ → Prop} {Q' : β → Told → Rendering κ σ → Prop}
  {out : Option (Except RenderError α × Told)}

theorem Leads.does (h : r.Leads host r') (hd : r'.Does host bound Q out) :
    r.Does host bound Q out := by
  obtain ⟨count, hc⟩ := h
  cases hd with
  | goes h' hq => exact .goes (trans ⟨count, hc⟩ h') hq
  | fails steps h' =>
    cases steps with
    | zero => cases h'
    | succ steps => exact .fails (count + steps + 1) (by rw [hc, h'])
  | lasts steps hs h' =>
    cases steps with
    | zero => exact .lasts 0 hs rfl
    | succ steps =>
      refine .lasts (count + steps + 1) ?_ (by rw [hc, h'])
      exact Nat.le_trans hs (Nat.succ_le_succ (Nat.le_add_left _ _))

namespace Does

/-- A step may take a round. -/
theorem of_step (h : r.step host = .running r') (hd : r'.Does host bound Q out) :
    r.Does host (bound + 1) Q out := by
  cases hd with
  | goes h' hq => exact .goes (.trans (.of_running h) h') hq
  | fails steps h' => exact .fails (steps + 1) (by rw [run_of_running h, h'])
  | lasts steps hs h' =>
    exact .lasts (steps + 1) (Nat.succ_le_succ hs) (by rw [run_of_running h, h'])

theorem mono {bound' : Nat} (h : r.Does host bound Q out) (hb : bound' ≤ bound) :
    r.Does host bound' Q out := by
  cases h with
  | goes h hq => exact .goes h hq
  | fails steps h => exact .fails steps h
  | lasts steps hs h => exact .lasts steps (Nat.le_trans hb hs) h

/-- One effect after the other. -/
theorem bind {x : Effect α} {f : α → Effect β} {t : Told} (h : r.Does host bound Q (x t))
    (hf : ∀ a t' r', Q a t' r' → r'.Does host bound Q' (f a t')) :
    r.Does host bound Q' ((x >>= f) t) := by
  rw [Effect.bind_apply]
  generalize x t = out at h
  cases h with
  | goes h hq => exact h.does (hf _ _ _ hq)
  | fails steps h => exact .fails steps h
  | lasts steps hs h => exact .lasts steps hs h

/-- What holds some steps later. -/
theorem later {Q' : α → Told → Rendering κ σ → Prop} (h : r.Does host bound Q out)
    (hq : ∀ a t' r', Q a t' r' → ∃ r'', r'.Leads host r'' ∧ Q' a t' r'') :
    r.Does host bound Q' out := by
  cases h with
  | goes h h' =>
    obtain ⟨r'', hl, h''⟩ := hq _ _ _ h'
    exact .goes (h.trans hl) h''
  | fails steps h => exact .fails steps h
  | lasts steps hs h => exact .lasts steps hs h

end Does

namespace DoesNext

theorem does (h : r.DoesNext host Q out) : r.Does host bound Q out := by
  cases h with
  | goes h hq => exact .goes (.of_running h) hq
  | fails h => exact .fails 1 (run_of_told h 0)

/-- After a step there may be one round less. -/
theorem bind {x : Effect α} {f : α → Effect β} {t : Told} (h : r.DoesNext host Q (x t))
    (hf : ∀ a t' r', Q a t' r' → r'.Does host bound Q' (f a t')) :
    r.Does host (bound + 1) Q' ((x >>= f) t) := by
  rw [Effect.bind_apply]
  generalize x t = out at h
  cases h with
  | goes h hq => exact .of_step h (hf _ _ _ hq)
  | fails h => exact .fails 1 (run_of_told h 0)

end DoesNext

/-- A round after the other, where `A` holds before a round, `B` behind it and `C` at the end. Where
the rounds do not suffice, each of them took a step. -/
theorem Does.repeatWhile {round : Effect Unit} {again : Effect Bool} {limit : Nat}
    {A B C : Told → Rendering κ σ → Prop}
    (hround : ∀ t r, A t r → r.Does host limit (fun _ => B) (round t))
    (hagain : ∀ t r, B t r →
      r.DoesNext host (fun (goesOn : Bool) t' r' => if goesOn then A t' r' else C t' r') (again t))
    {count : Nat} (hc : count ≤ limit) {t : Told} (h : A t r) :
    r.Does host count (fun _ => C) (Effect.repeatWhile round again count t) := by
  induction count generalizing r t with
  | zero => exact .lasts 0 (Nat.le_refl 0) rfl
  | succ count ih =>
    refine .bind ((hround t r h).mono hc) fun _ t₁ r₁ h₁ => ?_
    refine DoesNext.bind (hagain t₁ r₁ h₁) fun goesOn t₂ r₂ h₂ => ?_
    cases goesOn with
    | true => exact ih (Nat.le_of_succ_le hc) h₂
    | false => exact .goes (.refl host r₂) h₂

/-- What holds as the items of a loop are taken up: `A` before a round, with the items behind it, and
`C` at the end. -/
def Taking (name : String) (A : List String → Told → Rendering κ σ → Prop)
    (C : Told → Rendering κ σ → Prop) (items : List String) (t : Told) (r : Rendering κ σ) : Prop :=
  match items with
  | [] => C { t with vars := t.vars.remove name } r
  | item :: items => A items { t with vars := t.vars.set name (.str item) } r

/-- A round for each item. -/
theorem Does.takeUp {round : Effect Unit} {name : String}
    {A : List String → Told → Rendering κ σ → Prop} {C : Told → Rendering κ σ → Prop}
    (hround : ∀ items t r, A items t r →
      r.Does host bound (fun _ => Taking name A C items) (round t))
    {items : List String} {t : Told} (h : Taking name A C items t r) :
    r.Does host bound (fun _ => C) (Effect.takeUp name round items t) := by
  induction items generalizing r t with
  | nil => exact .goes (.refl host r) h
  | cons item items ih =>
    show r.Does host bound _ ((round >>= fun _ => Effect.takeUp name round items)
      { t with vars := t.vars.set name (.str item) })
    exact .bind (hround items _ r h) fun _ _ _ h' => ih h'

/-! ### Standing in front of pieces -/

/-- What stays as it is while a passage is read. -/
structure Site (σ : Type) where
  level : Nat
  opened : Nat
  within : Option Nat
  outer : List (Passage σ)
  text : List Char

/-- The rendering stands in front of pieces that are left of its passage, with these blocks open and
that told of it. -/
structure Stands (g : Token.Grammar) (host : Host κ) (site : Site σ) (pieces : List Piece)
    (frames : Frames) (t : Told) (r : Rendering κ σ) : Prop where
  level : r.passage.level = site.level
  opened : r.passage.opened = site.opened
  within : r.passage.within = site.within
  outer : r.outer = site.outer
  whole : r.passage.window.Whole site.text
  room : r.sink.room = none
  pieces : g.pieces (0 < site.level) site.text.length
    (site.text.drop r.passage.window.cursor) = pieces
  frames : r.state.frames = frames
  told : r.told = t
  /-- Tokens are read in the same way throughout. -/
  grammar : host.grammar t.vars = g

variable [SteadySource σ] {g : Token.Grammar} {site : Site σ} {pieces : List Piece} {frames : Frames}
  {t : Told}

namespace Stands

/-- What a step does depends on what lies ahead. -/
theorem step (h : r.Stands g host site pieces frames t) :
    r.step host =
      match r.upon (host.look site.level site.within site.text none r.passage.window.cursor) with
      | .token raw r => act host r raw
      | .ending r => r.leave
      | .failure e r => .failed e r := by
  have hstep := step_eq host r
  rw [meet_of_whole host h.whole h.room, h.level, h.within] at hstep
  exact hstep

omit [CharSource σ] [SteadySource σ] in
/-- The rendering stands elsewhere in its passage and has written some literal text. -/
theorem past {rest : List Piece} (h : r.Stands g host site pieces frames t)
    {sight : Passed (Option (List Char))} (hc : sight.cursor ≤ site.text.length)
    (hp : g.pieces (0 < site.level) site.text.length (site.text.drop sight.cursor) = rest) :
    (r.past sight).Stands g host site rest frames
      (if frames.suppressed then t
        else { t with text := t.text ++ String.ofList sight.literal }) where
  level := h.level
  opened := h.opened
  within := h.within
  outer := h.outer
  whole := ⟨h.whole.supply, h.whole.segments, hc⟩
  room := Sink.room_put h.room _ _
  pieces := hp
  frames := h.frames
  told := by
    rw [← h.frames, ← h.told]
    show Told.mk (r.sink.put r.state.frames.suppressed sight.literal).text _ _ = _
    unfold Sink.put
    split
    · rfl
    · rw [Sink.write_of_room_eq_none h.room]
      rfl
  grammar := by
    rw [← h.grammar]
    split <;> rfl

omit [CharSource σ] [SteadySource σ] in
/-- The rendering stands elsewhere in its passage. -/
theorem past_of_nil {rest : List Piece} (h : r.Stands g host site pieces frames t)
    {sight : Passed (Option (List Char))} (hn : sight.literal = [])
    (hc : sight.cursor ≤ site.text.length)
    (hp : g.pieces (0 < site.level) site.text.length (site.text.drop sight.cursor) = rest) :
    (r.past sight).Stands g host site rest frames t := by
  have hpast := h.past hc hp
  rw [hn, String.ofList_nil, String.append_empty, ite_self] at hpast
  exact hpast

/-- In front of literal text: the next step is the one behind it. -/
theorem step_literal {literal : List Char} {rest : List Piece}
    (h : r.Stands g host site (.literal literal :: rest) frames t) :
    ∃ r' : Rendering κ σ, r.step host = r'.step host ∧ r'.Stands g host site rest frames
      (if frames.suppressed then t else { t with text := t.text ++ String.ofList literal }) := by
  have hlook := Host.look_of_pieces host site.level site.within h.whole.cursor_le t.vars
  rw [h.grammar, h.pieces] at hlook
  obtain ⟨place, hle, hlook, hnone, hpieces⟩ := hlook
  have hstands : (r.past ⟨.ok none, place, literal⟩).Stands g host site rest frames _ :=
    h.past hle hpieces
  refine ⟨_, ?_, hstands⟩
  have hupon : (r.past ⟨.ok none, place, literal⟩).upon
      (host.look site.level site.within site.text none place) = _ := upon_past h.room hnone
  have hstep := hstands.step
  rw [show (r.past ⟨.ok none, place, literal⟩).passage.window.cursor = place from rfl, hupon,
    ← hlook] at hstep
  rw [hstep]
  exact h.step

theorem literal {literal : List Char} {rest : List Piece}
    (h : r.Stands g host site (.literal literal :: rest) frames t) :
    ∃ r', r.Leads host r' ∧ r'.Stands g host site rest frames
      (if frames.suppressed then t else { t with text := t.text ++ String.ofList literal }) := by
  obtain ⟨r', hstep, hstands⟩ := h.step_literal
  exact ⟨r', .of_step hstep, hstands⟩

/-- In front of a token: it is acted on, behind it. -/
theorem token {raw : List Char} {rest : List Piece}
    (h : r.Stands g host site (.token raw :: rest) frames t) :
    ∃ r' : Rendering κ σ, r'.Stands g host site rest frames t ∧ r.step host = act host r' raw := by
  have hlook := Host.look_of_pieces host site.level site.within h.whole.cursor_le t.vars
  rw [h.grammar, h.pieces] at hlook
  obtain ⟨place, hle, hlook, hpieces⟩ := hlook
  have hstep := h.step
  rw [hlook] at hstep
  exact ⟨_, h.past_of_nil rfl hle hpieces, hstep⟩

/-- At the end of the passage: it is left. -/
theorem ending (h : r.Stands g host site [] frames t) :
    ∃ r' : Rendering κ σ, r'.Stands g host site [] frames t ∧ r.step host = r'.leave := by
  have hlook := Host.look_of_pieces host site.level site.within h.whole.cursor_le t.vars
  rw [h.grammar, h.pieces] at hlook
  have hstep := h.step
  rw [hlook] at hstep
  refine ⟨_, h.past_of_nil rfl (Nat.le_refl _) ?_, hstep⟩
  rw [List.drop_length]
  exact Token.Grammar.pieces_nil

/-- In front of a token that is not closed. -/
theorem unclosed {offset : Nat} {rest : List Piece}
    (h : r.Stands g host site (.unclosed offset :: rest) frames t) :
    (r.step host).told = some (.error (.unterminatedToken offset site.within), t) := by
  have hlook := Host.look_of_pieces host site.level site.within h.whole.cursor_le t.vars
  rw [h.grammar, h.pieces] at hlook
  have hstep := h.step
  rw [hlook] at hstep
  rw [hstep]
  have htold := (h.past_of_nil rfl (Nat.le_refl _) rfl :
    (r.past ⟨.error (.unterminatedToken offset site.within), site.text.length, []⟩).Stands
      g host site _ frames t).told
  rw [← htold]
  rfl

end Stands

end Rendering

end Stencil
