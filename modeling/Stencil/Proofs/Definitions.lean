import Stencil.Proofs.Nesting
import Stencil.Proofs.Shapes

/-! What a rendering defines.

Two kinds of tokens bind names: a definition, and an `each`, whose name is bound to one item after
another and unbound in the end. A name is not bound before the token was read, and is then acceptable
(`Token.Grammar.accepts_of_classify`). Every block that is open was opened by a token of the rendering,
so whatever a step does to the variables it does under names that the tokens met so far bind
(`Rendering.BindsOnly.step`). Over a whole run the other variables are left alone, each in its place, and
what is added has an acceptable name (`Rendering.others_run_eq`). -/
namespace Stencil

/-! ### Variables of other names -/

/-- The bindings of other names than these, in their order. -/
def Variables.others (vars : Variables) (names : List String) : List (String × Value) :=
  vars.bindings.filter fun binding => binding.1 ∉ names

namespace Variables
variable {vars : Variables} {names : List String} {name : String}

theorem filter_put {value : Value} (bindings : List (String × Value)) (h : name ∈ names) :
    (Bindings.put name value bindings).filter (fun binding => binding.1 ∉ names) =
      bindings.filter fun binding => binding.1 ∉ names := by
  induction bindings with
  | nil => simp [Bindings.put, h]
  | cons binding rest ih =>
    unfold Bindings.put
    split
    · next heq =>
      have hbinding : binding.1 ∈ names := heq ▸ h
      rw [List.filter_cons_of_neg (by simpa using h), List.filter_cons_of_neg (by simpa using hbinding)]
    · rw [List.filter_cons, List.filter_cons, ih]

theorem others_set {value : Value} (h : name ∈ names) :
    (vars.set name value).others names = vars.others names :=
  filter_put vars.bindings h

theorem get?_of_bound? {value : Value} (h : vars.bound? name = some value) :
    vars.get? name = some value := by
  unfold get?
  rw [h]

theorem others_remove (h : name ∈ names) : (vars.remove name).others names = vars.others names := by
  unfold others remove
  rw [List.filter_filter]
  refine List.filter_congr fun binding _ => ?_
  by_cases hb : binding.1 ∈ names
  · simp [hb]
  · have hne : binding.1 ≠ name := fun he => hb (he ▸ h)
    simp [hb, hne]

/-- The value of another name stands among them. -/
theorem bound?_eq_lookup_others (h : name ∉ names) :
    vars.bound? name = (vars.others names).lookup name := by
  unfold bound? others
  induction vars.bindings with
  | nil => rfl
  | cons binding rest ih =>
    obtain ⟨n, v⟩ := binding
    by_cases hn : name = n
    · rw [List.filter_cons_of_pos (by simpa [← hn] using h), hn, List.lookup_cons_self,
        List.lookup_cons_self]
    · rw [Bindings.lookup_cons_of_ne hn, ih, List.filter_cons]
      split
      · rw [Bindings.lookup_cons_of_ne hn]
      · rfl

theorem mem_others {binding : String × Value} :
    binding ∈ vars.others names ↔ binding ∈ vars.bindings ∧ binding.1 ∉ names := by
  simp [others]

end Variables

/-! ### Names that tokens bind -/

namespace Token.Grammar
variable {g : Grammar} {name : String}

/-- A token binds no name that is not acceptable. -/
theorem accepts_of_classify {id : Nat} {raw : List Char} {token : Token}
    (h : g.classify id raw = .ok token) (hb : token.Binds name) : g.accepts name = true := by
  obtain ⟨hformed, -⟩ := formed_read (read_of_classify h)
  obtain ⟨id', directive, length⟩ := token
  cases directive with
  | define defined meaning =>
    cases hb
    exact hformed.1.accepts
  | eachOpen item sequence =>
    cases hb
    exact hformed.1.accepts
  | _ => cases hb

end Token.Grammar

/-! ### Blocks and their tokens -/

/-- An open block was opened by the token that was just interpreted, or was open before. -/
theorem Host.token_of_interpret {κ : Type} {host : Host κ} {token : Token} {level resume : Nat}
    {s : RenderState κ} {frame : Frame}
    (h : frame ∈ (host.interpret token level resume s).2.frames) :
    frame.token = token ∨ ∃ before ∈ s.frames, before.token = frame.token := by
  cases hi : host.interpret token level resume s with
  | mk result s' =>
    rw [hi] at h
    have hold : frame ∈ s.frames → ∃ before ∈ s.frames, before.token = frame.token :=
      fun hm => ⟨frame, hm, rfl⟩
    cases result with
    | error e =>
      rcases of_interpret_error hi with rfl | ⟨mark, below, hf, -, -, -, rfl⟩
      · exact .inr (hold h)
      · exact .inr (hold (hf ▸ List.mem_cons_of_mem mark h))
    | ok resolution =>
      have hstep := frameStep_of_interpret hi
      dsimp only at h
      generalize s.frames = frames at hstep hold ⊢
      generalize s'.frames = frames' at hstep h
      cases hstep with
      | written | defined => exact .inr (hold h)
      | skipped | ifOpened | whileOpened | eachEmpty | eachOpened | elseMarked =>
        rcases List.mem_cons.1 h with rfl | hm
        · exact .inl rfl
        · exact .inr (hold hm)
      | ifClosed | loopClosed => exact .inr (hold (List.mem_cons_of_mem _ h))
      | elseClosed =>
        exact .inr (hold (List.mem_cons_of_mem _ (List.mem_cons_of_mem _ h)))
      | loopAgain =>
        rcases List.mem_cons.1 h with rfl | hm
        · exact .inr ⟨_, List.mem_cons_self, rfl⟩
        · exact .inr (hold (List.mem_cons_of_mem _ hm))

namespace Rendering
variable {κ σ : Type}

/-! ### The tokens of a rendering -/

/-- The token that the next step comes upon, whatever becomes of it. -/
def classified? [CharSource σ] (host : Host κ) (r : Rendering κ σ) : Option Token :=
  match r.meet host with
  | .token raw r => ((host.grammar r.counted.vars).classify r.counted.tokens raw).toOption
  | _ => none

/-- The tokens that so many steps come upon, in the template and in values, as often as they do. -/
def classified [CharSource σ] (host : Host κ) : (steps : Nat) → Rendering κ σ → List Token
  | 0, _ => []
  | steps + 1, r =>
    (r.classified? host).toList ++
      match r.step host with
      | .running r => classified host steps r
      | _ => []

/-- The names that the tokens of so many steps define, or bind to one item after another. -/
def boundNames [CharSource σ] (host : Host κ) (steps : Nat) (r : Rendering κ σ) : List String :=
  (r.classified host steps).filterMap fun token => token.directive.bound?

theorem mem_boundNames [CharSource σ] {host : Host κ} {steps : Nat} {r : Rendering κ σ}
    {name : String} :
    name ∈ r.boundNames host steps ↔ ∃ token ∈ r.classified host steps, token.Binds name :=
  List.mem_filterMap

/-! ### What a step does to the state -/

theorem state_replay (r : Rendering κ σ) (id : Nat) : (r.replay id).rendering.state = r.state := by
  unfold replay
  split
  · rfl
  · split <;> rfl

theorem state_leave (r : Rendering κ σ) : r.leave.rendering.state = r.state := by
  rcases leave_cases r with ⟨e, h, -⟩ | ⟨-, ⟨-, h⟩ | ⟨passage, outer, -, h⟩⟩ <;> rw [h] <;> rfl

theorem state_carryOut (host : Host κ) (r : Rendering κ σ) (id : Nat) (resolution : Resolution) :
    (carryOut host r id resolution).rendering.state = r.state := by
  rcases carryOut_cases host r id resolution with ⟨sink, h⟩ | ⟨value, -, h⟩ | ⟨e, r', h, -, hs⟩ | ⟨-, h⟩
  · rw [h]
    rfl
  · rw [h]
    rfl
  · rw [h]
    exact hs
  · rw [h]
    exact state_replay r id

/-- What a token does to the state is what interpreting it does. -/
theorem state_act (host : Host κ) (r : Rendering κ σ) (raw : List Char) :
    (act host r raw).rendering.state =
      match (host.grammar r.counted.vars).classify r.counted.tokens raw with
      | .ok token => (host.interpret token r.passage.level r.passage.window.cursor r.counted).2
      | .error _ => r.counted := by
  cases hc : (host.grammar r.counted.vars).classify r.counted.tokens raw with
  | error e =>
    rw [act_of_classify_error hc]
    rfl
  | ok token =>
    dsimp only
    cases hi : host.interpret token r.passage.level r.passage.window.cursor r.counted with
    | mk result state =>
      cases result with
      | error e =>
        rw [act_of_interpret_error hc hi]
        rfl
      | ok resolution =>
        rw [act_of_resolves ⟨hc, hi⟩, state_carryOut, followLoop_eq]
        rfl

variable [CharSource σ] {host : Host κ} {r : Rendering κ σ}

/-- A step comes upon a token and interprets it, or it does nothing but count one. -/
theorem state_step (host : Host κ) (r : Rendering κ σ) :
    (r.step host).rendering.state = r.state ∨
      ∃ r' : Rendering κ σ, r'.state = r.state ∧
        ((r.step host).rendering.state = r'.counted ∨
          ∃ token raw, r.classified? host = some token ∧
            (host.grammar r.state.vars).classify r'.counted.tokens raw = .ok token ∧
            (r.step host).rendering.state =
              (host.interpret token r'.passage.level r'.passage.window.cursor r'.counted).2) := by
  have hstate := (readsTo_meet host r).state_eq
  rw [step_eq]
  unfold classified?
  cases hm : r.meet host with
  | ending r' =>
    rw [hm] at hstate
    exact .inl ((state_leave r').trans hstate)
  | failure e r' =>
    rw [hm] at hstate
    exact .inl hstate
  | token raw r' =>
    rw [hm] at hstate
    refine .inr ⟨r', hstate, ?_⟩
    dsimp only
    rw [state_act]
    have hvars : r'.counted.vars = r.state.vars := congrArg (·.vars) hstate
    cases hc : (host.grammar r'.counted.vars).classify r'.counted.tokens raw with
    | error e => exact .inl rfl
    | ok token => exact .inr ⟨token, raw, rfl, hvars ▸ hc, rfl⟩

/-- The rule for names stays the same. -/
theorem validator_step (host : Host κ) (r : Rendering κ σ) :
    (r.step host).rendering.state.vars.validator = r.state.vars.validator := by
  rcases state_step host r with h | ⟨r', hr, h | ⟨token, raw, -, -, h⟩⟩
  · rw [h]
  · rw [h, ← hr]
    rfl
  · rw [h, Host.validator_interpret, ← hr]
    rfl

theorem validator_run (host : Host κ) (r : Rendering κ σ) (steps : Nat) :
    (r.run host steps).rendering.state.vars.validator = r.state.vars.validator :=
  run_invariant (P := fun p => p.rendering.state.vars.validator = r.state.vars.validator)
    (fun r' h => (validator_step host r').trans h) rfl steps

/-- The names that the next token binds are acceptable. -/
theorem accepts_of_classified {token : Token} {name : String} (h : r.classified? host = some token)
    (hb : token.Binds name) : r.state.vars.accepts name = true := by
  have hstate := (readsTo_meet host r).state_eq
  unfold classified? at h
  cases hm : r.meet host with
  | token raw r' =>
    rw [hm] at h hstate
    dsimp only at h
    cases hc : (host.grammar r'.counted.vars).classify r'.counted.tokens raw with
    | error e =>
      rw [hc] at h
      cases h
    | ok token' =>
      rw [hc] at h
      cases h
      have haccepts := Token.Grammar.accepts_of_classify hc hb
      rw [← hstate]
      exact haccepts
  | ending r' =>
    rw [hm] at h
    cases h
  | failure e r' =>
    rw [hm] at h
    cases h

/-- So are the names that the tokens of a rendering bind. -/
theorem accepts_of_mem_classified {steps : Nat} {token : Token} {name : String}
    (h : token ∈ r.classified host steps) (hb : token.Binds name) :
    r.state.vars.accepts name = true := by
  induction steps generalizing r with
  | zero => cases h
  | succ steps ih =>
    unfold classified at h
    rcases List.mem_append.1 h with hm | hm
    · exact accepts_of_classified (Option.mem_toList.1 hm) hb
    · have hvalidator := validator_step host r
      cases hs : r.step host with
      | running r' =>
        rw [hs] at hm hvalidator
        have haccepts := ih hm
        unfold Variables.accepts at haccepts ⊢
        rw [← hvalidator]
        exact haccepts
      | finished r' =>
        rw [hs] at hm
        cases hm
      | failed e r' =>
        rw [hs] at hm
        cases hm

/-! ### Runs -/

/-- Only variables of these names differ from what they were before, and the open blocks bind no
others. -/
structure BindsOnly (names : List String) (before : Variables) (s : RenderState κ) : Prop where
  others : s.vars.others names = before.others names
  frames : ∀ frame ∈ s.frames, ∀ name, frame.token.Binds name → name ∈ names

/-- A token that binds none but these names keeps it that way. -/
theorem BindsOnly.interpret {names : List String} {before : Variables} {s : RenderState κ}
    {token : Token} (h : BindsOnly names before s) (ht : ∀ name, token.Binds name → name ∈ names)
    (level resume : Nat) : BindsOnly names before (host.interpret token level resume s).2 where
  others := by
    have hkept := Host.kept_interpret_of_binds (fun s => s.vars.others names)
      (fun _ _ => rfl) (fun s name value hn => Variables.others_set hn)
      (fun s name hn => Variables.others_remove hn) (fun _ _ => rfl) host level resume ht h.frames
    exact hkept.trans h.others
  frames frame hm name hb := by
    rcases Host.token_of_interpret hm with hnew | ⟨old, hold, heq⟩
    · exact ht name (hnew ▸ hb)
    · exact h.frames old hold name (heq ▸ hb)

theorem BindsOnly.step {names : List String} {before : Variables} (h : BindsOnly names before r.state)
    (ht : ∀ token, r.classified? host = some token → ∀ name, token.Binds name → name ∈ names) :
    BindsOnly names before (r.step host).rendering.state := by
  have hcounted : ∀ r' : Rendering κ σ, r'.state = r.state → BindsOnly names before r'.counted := by
    intro r' hr
    rw [← hr] at h
    exact ⟨h.others, h.frames⟩
  rcases state_step host r with hs | ⟨r', hr, hs | ⟨token, raw, hc, -, hs⟩⟩
  · rw [hs]
    exact h
  · rw [hs]
    exact hcounted r' hr
  · rw [hs]
    exact (hcounted r' hr).interpret (ht token hc) _ _

theorem BindsOnly.run {names : List String} {before : Variables} {steps : Nat}
    (h : BindsOnly names before r.state)
    (ht : ∀ token ∈ r.classified host steps, ∀ name, token.Binds name → name ∈ names) :
    BindsOnly names before (r.run host steps).rendering.state := by
  induction steps generalizing r with
  | zero => exact h
  | succ steps ih =>
    unfold classified at ht
    have hstep := h.step fun token hc =>
      ht token (List.mem_append_left _ (Option.mem_toList.2 hc))
    unfold Rendering.run
    cases hs : r.step host with
    | running r' =>
      rw [hs] at hstep ht
      exact ih hstep fun token hm => ht token (List.mem_append_right _ hm)
    | finished r' =>
      rw [hs] at hstep
      exact hstep
    | failed e r' =>
      rw [hs] at hstep
      exact hstep

/-- **A rendering changes only what its tokens define.** However far it comes, and also where it fails,
the variables whose names no definition and no `each` among its tokens has, in the template or in any
value, have the values that they had before, in the same order; and the names that there were no
variables of before are acceptable. -/
theorem others_run_eq (host : Host κ) (window : Window σ) (level : Nat) (vars : Variables) (memory : κ)
    (pool : Pool) (sink : Sink) (steps : Nat) :
    let r : Rendering κ σ := start window level { vars, memory } pool sink
    let after := (r.run host steps).rendering.state.vars
    after.others (r.boundNames host steps) = vars.others (r.boundNames host steps) ∧
      (∀ name ∉ r.boundNames host steps, after.bound? name = vars.bound? name) ∧
      after.validator = vars.validator ∧
      ∀ name ∈ after.bindings.map (·.1), name ∉ vars.bindings.map (·.1) →
        vars.accepts name = true := by
  intro r after
  have hbegin : BindsOnly (r.boundNames host steps) vars r.state := ⟨rfl, nofun⟩
  have hothers : after.others (r.boundNames host steps) = vars.others (r.boundNames host steps) :=
    (hbegin.run fun token hm name hb => mem_boundNames.2 ⟨token, hm, hb⟩).others
  refine ⟨hothers, fun name hn => ?_, validator_run host r steps, fun name hafter hbefore => ?_⟩
  · rw [Variables.bound?_eq_lookup_others hn, hothers, ← Variables.bound?_eq_lookup_others hn]
  · -- A variable that is new is not among the others, so a token binds its name.
    have hbound : name ∈ r.boundNames host steps := by
      by_contra hn
      obtain ⟨binding, hm, rfl⟩ := List.mem_map.1 hafter
      have hmem : binding ∈ vars.others (r.boundNames host steps) :=
        hothers ▸ Variables.mem_others.2 ⟨hm, hn⟩
      exact hbefore (List.mem_map.2 ⟨binding, (Variables.mem_others.1 hmem).1, rfl⟩)
    obtain ⟨token, hm, hb⟩ := mem_boundNames.1 hbound
    exact accepts_of_mem_classified hm hb

end Rendering

end Stencil
