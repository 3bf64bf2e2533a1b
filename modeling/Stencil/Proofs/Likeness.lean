import Stencil.Proofs.Joining
import Stencil.Proofs.Telling

/-! What a meaning depends on.

What blocks come to depends on the variables that they are met with and on nothing else that was told
before (`Blocks.alike_eval`): the text so far stays in front of what is written, and the numbers of
tokens and the place of the blocks in a text show in errors alone, if missing values are not marked. -/
namespace Stencil

namespace Effect
variable {α α' β β' : Type} {R : α → α' → Prop} {S : β → β' → Prop}

/-- The same came of two effects, of which one had one text in front and the other another: both need
more rounds than there may be, or both fail, or both go on, with the same text behind and the same
variables. -/
inductive Matches (R : α → α' → Prop) (text text' : String) :
    Option (Except RenderError α × Told) → Option (Except RenderError α' × Told) → Prop
  | endless : Matches R text text' none none
  | fails {e e' : RenderError} {t t' : Told} :
      Matches R text text' (some (.error e, t)) (some (.error e', t'))
  | goes {a : α} {a' : α'} {more : String} {vars : Variables} {tokens tokens' : Nat} (h : R a a') :
      Matches R text text' (some (.ok a, ⟨text ++ more, vars, tokens⟩))
        (some (.ok a', ⟨text' ++ more, vars, tokens'⟩))

/-- Two effects come to the same wherever the variables are the same. -/
def Alike (R : α → α' → Prop) (x : Effect α) (x' : Effect α') : Prop :=
  ∀ (text text' : String) (vars : Variables) (tokens tokens' : Nat),
    Matches R text text' (x ⟨text, vars, tokens⟩) (x' ⟨text', vars, tokens'⟩)

namespace Alike

theorem bind {x : Effect α} {x' : Effect α'} {f : α → Effect β} {f' : α' → Effect β'}
    (hx : Alike R x x') (hf : ∀ a a', R a a' → Alike S (f a) (f' a')) :
    Alike S (x >>= f) (x' >>= f') := by
  intro text text' vars tokens tokens'
  have hx := hx text text' vars tokens tokens'
  rw [bind_apply, bind_apply]
  generalize x ⟨text, vars, tokens⟩ = out at hx
  generalize x' ⟨text', vars, tokens'⟩ = out' at hx
  cases hx with
  | endless => exact .endless
  | fails => exact .fails
  | @goes a a' more vars₁ n n' h =>
    have hf := hf a a' h (text ++ more) (text' ++ more) vars₁ n n'
    dsimp only
    generalize f a ⟨text ++ more, vars₁, n⟩ = out at hf
    generalize f' a' ⟨text' ++ more, vars₁, n'⟩ = out' at hf
    cases hf with
    | endless => exact .endless
    | fails => exact .fails
    | goes h =>
      rw [String.append_assoc, String.append_assoc]
      exact .goes h

/-- What comes of an effect that writes nothing. -/
theorem of_silent {x : Effect α} {x' : Effect α'}
    (h : ∀ t t' : Told, t.vars = t'.vars →
      (∃ a a', R a a' ∧ ∃ vars tokens tokens', x t = some (.ok a, ⟨t.text, vars, tokens⟩) ∧
        x' t' = some (.ok a', ⟨t'.text, vars, tokens'⟩)) ∨
      ∃ e e' t₁ t₁', x t = some (.error e, t₁) ∧ x' t' = some (.error e', t₁')) :
    Alike R x x' := by
  intro text text' vars tokens tokens'
  rcases h ⟨text, vars, tokens⟩ ⟨text', vars, tokens'⟩ rfl with
    ⟨a, a', ha, vars₁, n, n', hx, hx'⟩ | ⟨e, e', t₁, t₁', hx, hx'⟩
  · rw [hx, hx']
    have hgoes : Matches R text text' (some (.ok a, ⟨text ++ "", vars₁, n⟩))
      (some (.ok a', ⟨text' ++ "", vars₁, n'⟩)) := .goes ha
    rwa [String.append_empty, String.append_empty] at hgoes
  · rw [hx, hx']
    exact .fails

theorem pure {a : α} {a' : α'} (h : R a a') : Alike R (pure a : Effect α) (pure a') :=
  of_silent fun t t' hv =>
    .inl ⟨a, a', h, t.vars, t.tokens, t'.tokens, rfl, by rw [hv]; rfl⟩

theorem throw (e e' : RenderError) : Alike R (throw e : Effect α) (throw e') :=
  fun _ _ _ _ _ => .fails

theorem token : Alike (fun _ _ => True) token token :=
  of_silent fun t t' hv =>
    .inl ⟨_, _, trivial, t.vars, _, _, token_apply t, by rw [token_apply, hv]⟩

theorem write (text : List Char) : Alike Eq (write text) (write text) :=
  fun _ _ _ _ _ => .goes rfl

theorem assign (name : String) (value : Value) : Alike Eq (assign name value) (assign name value) :=
  of_silent fun t t' hv =>
    .inl ⟨(), (), rfl, t.vars.set name value, t.tokens, t'.tokens, rfl, by rw [hv]; rfl⟩

theorem remove (name : String) : Alike Eq (remove name) (remove name) :=
  of_silent fun t t' hv =>
    .inl ⟨(), (), rfl, t.vars.remove name, t.tokens, t'.tokens, rfl, by rw [hv]; rfl⟩

theorem consult {f f' : Variables → Except RenderError α}
    (h : ∀ vars, (f vars).toOption = (f' vars).toOption) :
    Alike Eq (consult f) (consult f') := by
  refine of_silent fun t t' hv => ?_
  rw [consult_apply, consult_apply, ← hv]
  have h := h t.vars
  cases hf : f t.vars with
  | ok a =>
    cases hf' : f' t.vars with
    | ok a' =>
      rw [hf, hf'] at h
      cases h
      refine .inl ⟨a, a, rfl, t.vars, t.tokens, t'.tokens, rfl, ?_⟩
      rw [hv]
    | error e' =>
      rw [hf, hf'] at h
      cases h
  | error e =>
    cases hf' : f' t.vars with
    | ok a' =>
      rw [hf, hf'] at h
      cases h
    | error e' => exact .inr ⟨e, e', t, t', rfl, rfl⟩

theorem repeatWhile {round round' : Effect Unit} {again again' : Effect Bool}
    (hround : Alike Eq round round') (hagain : Alike Eq again again') (limit : Nat) :
    Alike Eq (repeatWhile round again limit) (repeatWhile round' again' limit) := by
  induction limit with
  | zero => exact fun _ _ _ _ _ => .endless
  | succ limit ih =>
    refine hround.bind fun _ _ _ => hagain.bind fun goesOn _ he => ?_
    subst he
    cases goesOn with
    | true => exact ih
    | false => exact pure rfl

theorem takeUp {round round' : Effect Unit} (hround : Alike Eq round round') (name : String)
    (items : List String) : Alike Eq (takeUp name round items) (takeUp name round' items) := by
  induction items with
  | nil => exact remove name
  | cons item items ih => exact (assign name (.str item)).bind fun _ _ _ => hround.bind fun _ _ _ => ih

theorem forEach {round round' : Effect Unit} (hround : Alike Eq round round') (name : String)
    (items : List String) : Alike Eq (forEach name round items) (forEach name round' items) := by
  cases items with
  | nil => exact hround
  | cons item items => exact takeUp hround name (item :: items)

end Alike

end Effect

namespace Host
variable {κ : Type} (host : Host κ)

/-- The number of a token only shows in an error, whatever is made of a value. -/
theorem toOption_evaluate {α : Type} (f : Value → α) (id id' : Nat) (vars : Variables)
    (text : String) :
    ((host.evaluate id vars text).map f).toOption = ((host.evaluate id' vars text).map f).toOption := by
  unfold evaluate
  cases host.evaluator text vars with
  | ok value => rfl
  | error e => rfl

theorem toOption_decide (id id' : Nat) (vars : Variables) (condition : Token.Condition) :
    (host.decide id vars condition).toOption = (host.decide id' vars condition).toOption := by
  cases condition with
  | holds name => rfl
  | fails name => rfl
  | expression text => exact host.toOption_evaluate Value.isTruthy id id' vars text

theorem toOption_defined (id id' : Nat) (vars : Variables) (meaning : Token.Meaning) :
    (host.defined id vars meaning).toOption = (host.defined id' vars meaning).toOption := by
  cases meaning with
  | text text => rfl
  | expression text =>
    show (host.evaluate id vars text).toOption = (host.evaluate id' vars text).toOption
    unfold evaluate
    cases host.evaluator text vars with
    | ok value => rfl
    | error e => rfl

theorem alike_ask (live : Bool) (condition : Token.Condition) :
    Effect.Alike (fun a a' => a.2 = a'.2) (host.ask live condition) (host.ask live condition) := by
  refine Effect.Alike.token.bind fun id id' _ => ?_
  cases live with
  | true =>
    exact (Effect.Alike.consult fun vars => host.toOption_decide id id' vars condition).bind
      fun _ _ he => .pure he
  | false => exact (Effect.Alike.pure rfl).bind fun _ _ he => .pure he

theorem alike_askAgain (holds : Bool) (id id' : Nat) (condition : Token.Condition) :
    Effect.Alike Eq (host.askAgain holds id condition) (host.askAgain holds id' condition) := by
  refine Effect.Alike.token.bind fun _ _ _ => ?_
  cases holds with
  | true => exact .consult fun vars => host.toOption_decide id id' vars condition
  | false => exact .pure rfl

theorem alike_gather (live : Bool) (sequence : String) :
    Effect.Alike (fun a a' => a.2 = a'.2) (host.gather live sequence) (host.gather live sequence) := by
  refine Effect.Alike.token.bind fun id id' _ => ?_
  cases live with
  | true =>
    exact (Effect.Alike.consult fun vars =>
      host.toOption_evaluate itemsOf id id' vars sequence).bind fun _ _ he => .pure he
  | false => exact (Effect.Alike.pure rfl).bind fun _ _ he => .pure he

theorem alike_defineName (live : Bool) (name : String) (meaning : Token.Meaning) :
    Effect.Alike Eq (host.defineName live name meaning) (host.defineName live name meaning) := by
  refine Effect.Alike.token.bind fun id id' _ => ?_
  cases live with
  | true =>
    refine (Effect.Alike.consult fun vars => host.toOption_defined id id' vars meaning).bind
      fun value _ he => ?_
    subst he
    exact .assign name value
  | false => exact .pure rfl

variable {host} {expand expand' : Nat → List Char → Effect Unit}

theorem alike_tellValue (hm : host.options.missing = .ignore)
    (hx : ∀ id id' value, Effect.Alike Eq (expand id value) (expand' id' value)) (live : Bool)
    (directive : Token.Directive) :
    Effect.Alike Eq (host.tellValue expand live directive) (host.tellValue expand' live directive) := by
  refine Effect.Alike.token.bind fun id id' _ => ?_
  cases live with
  | false => exact .pure rfl
  | true =>
    intro text text' vars tokens tokens'
    simp only [if_true]
    rw [writeValue_apply, writeValue_apply]
    dsimp only
    cases host.resolve vars directive with
    | ok value =>
      dsimp only
      split
      · exact hx id id' value.display.toList text text' vars tokens tokens'
      · exact Effect.Alike.write value.display.toList text text' vars tokens tokens'
    | error missing =>
      rw [hm]
      exact Effect.Alike.pure rfl text text' vars tokens tokens'

end Host

namespace Blocks

@[simp]
theorem moved_zero (blocks : Blocks) : blocks.moved 0 = blocks := by
  induction blocks with
  | unclosed offset => exact congrArg unclosed (Nat.zero_add offset)
  | _ => simp_all only [moved]

variable {κ : Type} {host : Host κ} {limit : Nat} {expand expand' : Nat → List Char → Effect Unit}

/-- **What blocks come to depends on the variables alone**, wherever they stand in a text. -/
theorem alike_eval (hm : host.options.missing = .ignore)
    (hx : ∀ id id' value, Effect.Alike Eq (expand id value) (expand' id' value))
    (within within' : Option Nat) (distance : Nat) (blocks : Blocks)
    (inside inside' : Option (Token.Kind × Nat)) (hi : inside.isSome = inside'.isSome) (live : Bool) :
    Effect.Alike Eq (blocks.eval host limit expand within inside live)
      ((blocks.moved distance).eval host limit expand' within' inside' live) := by
  induction blocks generalizing inside inside' live with
  | closed => exact .pure rfl
  | ending =>
    cases inside with
    | none =>
      cases inside' with
      | none => exact .pure rfl
      | some opener => cases hi
    | some opener =>
      cases inside' with
      | none => cases hi
      | some opener' => exact .throw _ _
  | unclosed offset => exact .throw _ _
  | faulty fault => exact Effect.Alike.token.bind fun _ _ _ => .throw _ _
  | text literal rest ih =>
    rw [eval_text, moved, eval_text]
    have hwrite : Effect.Alike Eq (if live then Effect.write literal else pure () : Effect Unit)
        (if live then Effect.write literal else pure ()) := by
      cases live with
      | true => exact .write literal
      | false => exact .pure rfl
    exact hwrite.bind fun _ _ _ => ih inside inside' hi live
  | value directive rest ih =>
    exact (Host.alike_tellValue hm hx live directive).bind fun _ _ _ => ih inside inside' hi live
  | define name meaning rest ih =>
    exact (host.alike_defineName live name meaning).bind fun _ _ _ => ih inside inside' hi live
  | ifThen condition yes rest ihy ih =>
    refine (host.alike_ask live condition).bind fun (id, holds) (id', holds') he => ?_
    obtain rfl : holds = holds' := he
    exact (ihy (some (_, id)) (some (_, id')) rfl holds).bind fun _ _ _ =>
      .bind .token fun _ _ _ => ih inside inside' hi live
  | ifElse condition yes no rest ihy ihn ih =>
    refine (host.alike_ask live condition).bind fun (id, holds) (id', holds') he => ?_
    obtain rfl : holds = holds' := he
    refine (ihy (some (_, id)) (some (_, id')) rfl holds).bind fun _ _ _ =>
      .bind .token fun mark mark' _ => ?_
    exact (ihn (some (_, mark)) (some (_, mark')) rfl (live && !holds)).bind fun _ _ _ =>
      .bind .token fun _ _ _ => ih inside inside' hi live
  | whileLoop condition body rest ihb ih =>
    refine (host.alike_ask live condition).bind fun (id, holds) (id', holds') he => ?_
    obtain rfl : holds = holds' := he
    exact (Effect.Alike.repeatWhile (ihb (some (_, id)) (some (_, id')) rfl holds)
      (host.alike_askAgain holds id id' condition) limit).bind fun _ _ _ => ih inside inside' hi live
  | eachLoop name sequence body rest ihb ih =>
    refine (host.alike_gather live sequence).bind fun (id, items) (id', items') he => ?_
    obtain rfl : items = items' := he
    refine (Effect.Alike.forEach ?_ name items).bind fun _ _ _ => ih inside inside' hi live
    exact (ihb (some (_, id)) (some (_, id')) rfl (!items.isEmpty)).bind fun _ _ _ =>
      .bind .token fun _ _ _ => .pure rfl

end Blocks

namespace Host
variable {κ : Type} {host : Host κ}

/-- What a value means depends on the variables alone. -/
theorem alike_expansion (hm : host.options.missing = .ignore) (limit : Nat) (g : Token.Grammar)
    (depth id id' : Nat) (value : List Char) :
    Effect.Alike Eq (host.expansion limit g depth id value)
      (host.expansion limit g depth id' value) := by
  induction depth generalizing id id' value with
  | zero => exact .throw _ _
  | succ depth ih =>
    have halike : Effect.Alike Eq
        ((g.blocks true value).eval host limit (host.expansion limit g depth) (some id) none true)
        (((g.blocks true value).moved 0).eval host limit (host.expansion limit g depth) (some id')
          none true) := Blocks.alike_eval hm ih (some id) (some id') 0 _ none none rfl true
    rw [Blocks.moved_zero] at halike
    exact halike

end Host

end Stencil
