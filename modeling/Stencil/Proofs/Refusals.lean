import Stencil.Proofs.Suppression
import Stencil.Proofs.Tokens

/-! Tokens that are refused.

A token is refused for one of two causes (`Host.Refuses`): it ends a part of a block that is not the
innermost one, or an expression fails that it cannot do without (`Token.Needs`). Where tokens led to the
open blocks there is no other cause (`Host.refuses_of_error`). Whatever such a token had begun to do is as
if it had not been met: no block, no item of a loop and no variable is changed, and the callback is not
asked (`Host.untouched_of_refusal`). -/
namespace Stencil

/-- A token that is met at a level cannot do without the value of that expression; where it has none, the
token with that number is to blame. -/
inductive Token.Needs (token : Token) (level : Nat) (frames : Frames) : Nat → String → Prop where
  /-- It decides about what follows. -/
  | condition {text : String} (hs : frames.suppressed = false)
      (hd : token.directive = .ifOpen (.expression text) ∨
        token.directive = .whileOpen (.expression text)) :
      Needs token level frames token.id text
  /-- It decides whether a loop starts over, which the token at the beginning of the loop says. -/
  | again {top : Frame} {below : Frames} {text : String} (hk : token.kind = .whileClose)
      (hf : frames = top :: below) (hl : top.level = level) (ht : top.truthy = true)
      (hd : top.token.directive = .whileOpen (.expression text)) :
      Needs token level frames top.token.id text
  /-- It says what a loop goes over. -/
  | sequence {name text : String} (hs : frames.suppressed = false)
      (hd : token.directive = .eachOpen name text) : Needs token level frames token.id text
  /-- It says what a name is defined as. -/
  | definition {name text : String} (hs : frames.suppressed = false)
      (hd : token.directive = .define name (.expression text)) :
      Needs token level frames token.id text

/-- What a token of that kind ends is the block that such tokens close or divide, or is the `else` of it. -/
theorem Token.Kind.eq_of_ends {kind opener opening : Token.Kind} (ho : kind.opener? = some opener)
    (h : kind.ends opening = true) : opening = opener ∨ kind = .ifClose ∧ opening = .elseMark := by
  unfold ends at h
  split at h
  · exact .inl (Option.some.inj ho)
  · exact .inl (Option.some.inj ho)
  · exact .inr ⟨rfl, rfl⟩
  · exact .inl (Option.some.inj ho)
  · exact .inl (Option.some.inj ho)
  · cases h

namespace Host
variable {κ κ' : Type}

/-- Why a token that is met at a level is refused on these blocks, with these variables. -/
inductive Refuses (host : Host κ) (token : Token) (level : Nat) (frames : Frames) (vars : Variables) :
    RenderError → Prop where
  /-- What it ends is not the innermost block, or was not opened at that level. -/
  | unmatched {opener : Token.Kind} (ho : token.kind.opener? = some opener)
      (hno : ∀ top ∈ frames.head?, top.level = level → token.kind.ends top.kind = false) :
      Refuses host token level frames vars (.token token.id (.unmatched token.kind opener))
  /-- An expression fails that it needs. -/
  | expression {id : Nat} {text : String} {error : EvalError}
      (hn : token.Needs level frames id text) (he : host.evaluator text vars = .error error) :
      Refuses host token level frames vars (.expression id error)

/-- The host with another callback. -/
def calling (host : Host κ) (callback : Option (Callback κ')) : Host κ' where
  options := host.options
  evaluator := host.evaluator
  environment := host.environment
  callback := callback

end Host

/-- The state with what another callback remembers. -/
def RenderState.remembering {κ κ' : Type} (s : RenderState κ) (memory : κ') : RenderState κ' where
  frames := s.frames
  position := s.position
  tokens := s.tokens
  vars := s.vars
  memory := memory

namespace Host
variable {κ κ' : Type} {host : Host κ} {token : Token} {level resume : Nat} {s s' : RenderState κ}
  {e : RenderError}

/-! ### Expressions that fail -/

theorem evaluate_eq_error_iff {id : Nat} {vars : Variables} {text : String} :
    host.evaluate id vars text = .error e ↔
      ∃ error, host.evaluator text vars = .error error ∧ e = .expression id error := by
  unfold evaluate
  cases host.evaluator text vars with
  | ok v => exact ⟨nofun, by rintro ⟨_, he, _⟩; cases he⟩
  | error error =>
    constructor
    · rintro ⟨⟩
      exact ⟨error, rfl, rfl⟩
    · rintro ⟨_, ⟨⟩, rfl⟩
      rfl

/-- Only an expression leaves a condition undecided. -/
theorem decide_eq_error_iff {id : Nat} {vars : Variables} {condition : Token.Condition} :
    host.decide id vars condition = .error e ↔
      ∃ text error, condition = .expression text ∧ host.evaluator text vars = .error error ∧
        e = .expression id error := by
  cases condition with
  | holds name => exact ⟨nofun, by rintro ⟨_, _, hc, _⟩; cases hc⟩
  | fails name => exact ⟨nofun, by rintro ⟨_, _, hc, _⟩; cases hc⟩
  | expression text =>
    have hmap : host.decide id vars (.expression text) = .error e ↔
        host.evaluate id vars text = .error e := by
      show (host.evaluate id vars text).map Value.isTruthy = .error e ↔ _
      cases host.evaluate id vars text with
      | ok v => exact ⟨nofun, nofun⟩
      | error error => exact ⟨fun h => by cases h; rfl, fun h => by cases h; rfl⟩
    rw [hmap, evaluate_eq_error_iff]
    constructor
    · rintro ⟨error, he, rfl⟩
      exact ⟨text, error, rfl, he, rfl⟩
    · rintro ⟨_, error, ⟨⟩, he, rfl⟩
      exact ⟨error, he, rfl⟩

/-! ### The causes and the refusal -/

/-- A token is refused for each of the causes, and changes nothing. -/
theorem interpret_of_refuses (h : host.Refuses token level s.frames s.vars e) :
    host.interpret token level resume s = (.error e, s) := by
  obtain ⟨id, directive, length⟩ := token
  cases h with
  | unmatched ho hno => exact interpret_of_stray ho hno
  | expression hn he =>
    cases hn with
    | condition hs hd =>
      rcases hd with hd | hd
      · rw [interpret_condition (.inl hd), if_neg (ne_true_of_eq_false hs), openConditional,
          decide_eq_error_iff.2 ⟨_, _, rfl, he, rfl⟩]
      · rw [interpret_condition (.inr hd), if_neg (ne_true_of_eq_false hs), openConditional,
          decide_eq_error_iff.2 ⟨_, _, rfl, he, rfl⟩]
    | again hk hf hl ht hd =>
      obtain rfl : directive = .whileClose := Token.Directive.eq_of_kind hk rfl
      rw [interpret_whileClose hf hd hl, ht, if_pos rfl, decide_eq_error_iff.2 ⟨_, _, rfl, he, rfl⟩]
    | sequence hs hd =>
      obtain rfl : directive = .eachOpen _ _ := hd
      rw [interpret_eachOpen, if_neg (ne_true_of_eq_false hs), openEach,
        evaluate_eq_error_iff.2 ⟨_, he, rfl⟩]
    | definition hs hd =>
      obtain rfl : directive = .define _ (.expression _) := hd
      rw [interpret_define hs, defined, evaluate_eq_error_iff.2 ⟨_, he, rfl⟩]

/-- A token that ends a part of a block which tokens led to is refused only if the block is another one,
or if the condition fails that its loop has to decide anew. -/
theorem refuses_of_ending_error (h : s.frames.Sound) {opener : Token.Kind}
    (ho : token.kind.opener? = some opener)
    (hi : host.interpret token level resume s = (.error e, s')) :
    host.Refuses token level s.frames s.vars e := by
  by_cases hno : ∀ top ∈ s.frames.head?, top.level = level → token.kind.ends top.kind = false
  · rw [interpret_of_stray ho hno] at hi
    cases hi
    exact .unmatched ho hno
  · push Not at hno
    obtain ⟨top, htop, hl, hends⟩ := hno
    obtain ⟨below, hf⟩ := List.head?_eq_some_iff.1 htop
    have hkind := Token.Kind.eq_of_ends ho (Bool.of_not_eq_false hends)
    obtain ⟨id, directive, length⟩ := token
    cases directive with
    | elseMark =>
      cases ho
      obtain hk | ⟨⟨⟩, _⟩ := hkind
      rw [interpret_elseMark hf hk hl] at hi
      cases hi
    | ifClose =>
      cases ho
      obtain hk | ⟨_, hm⟩ := hkind
      · rw [interpret_ifClose hf hk hl] at hi
        cases hi
      · rw [hf] at h
        obtain ⟨under, more, rfl, hk, hlevel, _⟩ := h.1.onOpener hm
        rw [interpret_ifClose_of_mark hf hm hl hk (hlevel.trans hl)] at hi
        cases hi
    | whileClose =>
      cases ho
      obtain hk | ⟨⟨⟩, _⟩ := hkind
      obtain ⟨condition, hd⟩ := Token.Directive.exists_of_kind_whileOpen hk
      rw [interpret_whileClose hf hd hl] at hi
      cases ht : top.truthy with
      | false =>
        rw [ht] at hi
        cases hi
      | true =>
        rw [ht, if_pos rfl] at hi
        split at hi
        · cases hi
        · cases hi
        · next he =>
          cases hi
          obtain ⟨text, error, rfl, heval, rfl⟩ := decide_eq_error_iff.1 he
          exact .expression (.again rfl hf hl ht hd) heval
    | eachClose =>
      cases ho
      obtain hk | ⟨⟨⟩, _⟩ := hkind
      obtain ⟨name, sequence, hd⟩ := Token.Directive.exists_of_kind_eachOpen hk
      rw [interpret_eachClose hf hd hl] at hi
      split at hi
      · split at hi
        · cases hi
        · cases hi
      · cases hi
    | _ => cases ho

/-- A condition is asked only where output is not withheld. -/
theorem refuses_of_condition_error {condition : Token.Condition}
    (hd : token.directive = .ifOpen condition ∨ token.directive = .whileOpen condition)
    (hi : host.interpret token level resume s = (.error e, s')) :
    host.Refuses token level s.frames s.vars e := by
  rw [interpret_condition hd] at hi
  split at hi
  · cases hi
  · next hs =>
    unfold openConditional at hi
    split at hi
    · cases hi
    · next he =>
      cases hi
      obtain ⟨text, error, rfl, heval, rfl⟩ := decide_eq_error_iff.1 he
      exact .expression (.condition (Bool.eq_false_iff.2 hs) hd) heval

/-- Where tokens led to the open blocks there is no other cause. -/
theorem refuses_of_error (h : s.frames.Sound)
    (hi : host.interpret token level resume s = (.error e, s')) :
    host.Refuses token level s.frames s.vars e := by
  by_cases hending : token.kind.opener?.isSome = true
  · obtain ⟨opener, ho⟩ := Option.isSome_iff_exists.1 hending
    exact refuses_of_ending_error h ho hi
  by_cases hw : token.kind.isWritten = true
  · rw [interpret_of_isWritten hw] at hi
    split at hi <;> cases hi
  obtain ⟨id, directive, length⟩ := token
  cases directive with
  | define name meaning =>
    by_cases hs : s.frames.suppressed = true
    · unfold interpret at hi
      dsimp only at hi
      rw [if_pos hs] at hi
      cases hi
    · rw [interpret_define (Bool.eq_false_iff.2 hs)] at hi
      cases meaning with
      | text text => cases hi
      | expression text =>
        dsimp only [defined] at hi
        split at hi
        · cases hi
        · next he =>
          cases hi
          obtain ⟨error, heval, rfl⟩ := evaluate_eq_error_iff.1 he
          exact .expression (.definition (Bool.eq_false_iff.2 hs) rfl) heval
  | ifOpen condition => exact refuses_of_condition_error (.inl rfl) hi
  | whileOpen condition => exact refuses_of_condition_error (.inr rfl) hi
  | eachOpen name sequence =>
    rw [interpret_eachOpen] at hi
    split at hi
    · cases hi
    · next hs =>
      unfold openEach at hi
      split at hi
      · next he =>
        cases hi
        obtain ⟨error, heval, rfl⟩ := evaluate_eq_error_iff.1 he
        exact .expression (.sequence (Bool.eq_false_iff.2 hs) rfl) heval
      · split at hi <;> cases hi
  | elseMark | ifClose | whileClose | eachClose => exact absurd rfl hending
  | empty | value name | expression text => exact absurd rfl hw

/-- The callback has no part in it. -/
theorem Refuses.calling {frames : Frames} {vars : Variables} (h : host.Refuses token level frames vars e)
    (callback : Option (Callback κ')) : (host.calling callback).Refuses token level frames vars e := by
  cases h with
  | unmatched ho hno => exact .unmatched ho hno
  | expression hn he => exact .expression hn he

/-- **A token that is refused is as if it had not been met.** On blocks that tokens led to, a token
fails with an error just if it is refused for that cause: because what it ends is not the innermost
block, or because an expression fails that it needs. The state is then what it was, with every block,
every item that a loop still has to come to and every variable; and whatever the callback is and
remembers, it is not asked: with any other the token fails in the same way, and what that one remembers
stays as well. -/
theorem untouched_of_refusal (h : s.frames.Reachable) (host : Host κ) (token : Token)
    (level resume : Nat) (e : RenderError) :
    ((host.interpret token level resume s).1 = .error e ↔
      host.Refuses token level s.frames s.vars e) ∧
    ((host.interpret token level resume s).1 = .error e →
      (host.interpret token level resume s).2 = s ∧
      ∀ {κ' : Type} (callback : Option (Callback κ')) (memory : κ'),
        (host.calling callback).interpret token level resume (s.remembering memory) =
          (.error e, s.remembering memory)) := by
  have hrefuses : (host.interpret token level resume s).1 = .error e →
      host.Refuses token level s.frames s.vars e := by
    intro hi
    cases hr : host.interpret token level resume s with
    | mk result s' =>
      rw [hr] at hi
      obtain rfl : result = .error e := hi
      exact refuses_of_error h.sound hr
  refine ⟨⟨hrefuses, fun hr => ?_⟩, fun hi => ⟨?_, fun callback memory => ?_⟩⟩
  · rw [interpret_of_refuses hr]
  · rw [interpret_of_refuses (hrefuses hi)]
  · exact interpret_of_refuses (s := s.remembering memory) ((hrefuses hi).calling callback)

/-- At the end of a `while` whose condition fails by now, in an `each` with one more item to come. -/
theorem untouched_of_failing_while :
    let outer : Token := ⟨1, .eachOpen "x" "v => v.xs", 18⟩
    let inner : Token := ⟨2, .whileOpen (.expression "v => v.x"), 15⟩
    let close : Token := ⟨3, .whileClose, 6⟩
    let frames : Frames :=
      [{ token := inner, truthy := true, live := true, level := 0, resume := some 41 },
        { token := outer, truthy := true, live := true, level := 0, resume := some 22,
          items := some ["b"] }]
    let error : EvalError := { cause := .divisionByZero }
    let host : Host Nat :=
      { evaluator := fun _ _ => .error error
        callback := some fun calls _ resolution => (resolution, calls + 1) }
    let s : RenderState Nat := { frames, vars := { bindings := [("x", .str "a")] }, memory := 0 }
    frames.Reachable ∧ (host.interpret close 0 49 s).1 = .error (.expression 2 error) ∧
      (host.interpret close 0 49 s).2 = s ∧
      (host.calling none).interpret close 0 49 (s.remembering ()) =
        (.error (.expression 2 error), s.remembering ()) := by
  intro outer inner close frames error host s
  let items : Host Unit := { evaluator := fun _ _ => .ok (.list [.str "a", .str "b"]) }
  let holds : Host Unit := { evaluator := fun _ _ => .ok (.bool true) }
  let state (frames : Frames) : RenderState Unit := { frames, vars := {}, memory := () }
  have hloop : Frames.Reachable (items.interpret outer 0 22 (state [])).2.frames :=
    .interpret items outer 0 22 .none
  have hreach : frames.Reachable := .interpret holds inner 0 41 (s := state _) hloop
  have hi : (host.interpret close 0 49 s).1 = .error (.expression 2 error) := rfl
  obtain ⟨-, huntouched⟩ := untouched_of_refusal (s := s) hreach host close 0 49 (.expression 2 error)
  obtain ⟨hsame, hother⟩ := huntouched hi
  exact ⟨hreach, hi, hsame, hother none ()⟩

end Host

end Stencil
