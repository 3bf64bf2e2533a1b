import Stencil.Expr.Eval

/-! The parameter of an expression is a bound name.

A bare name in an expression is compared with the parameter in three places: where it stands alone, in
front of a member and in front of a call; where it is not the parameter it may be the type of a static
call. So an expression in which the parameter has another name throughout comes to the same, whatever
name that is, as long as it did not stand in the expression before (`Lambda.agree_rename`). Only an
error may tell the two apart, by the name that it gives the parameter. -/
namespace Stencil

/-! ### Renaming -/

namespace Expr

mutual

/-- The expression with a new name for an old one wherever that stands as a bare name. The names of
members and methods stay as they are. -/
def rename (old new : String) : Expr → Expr
  | .literal value => .literal value
  | .ident name span => .ident (if name = old then new else name) span
  | .member target name span => .member (target.rename old new) name span
  | .call target method args span =>
    .call (target.rename old new) method (renameAll old new args) span
  | .index target position span => .index (target.rename old new) (position.rename old new) span
  | .unary op operand => .unary op (operand.rename old new)
  | .binary op left right => .binary op (left.rename old new) (right.rename old new)
  | .conditional condition yes no =>
    .conditional (condition.rename old new) (yes.rename old new) (no.rename old new)

def renameAll (old new : String) : List Expr → List Expr
  | [] => []
  | e :: es => e.rename old new :: renameAll old new es

end

mutual

/-- Whether a name stands as a bare name somewhere in the expression. -/
def mentions (name : String) : Expr → Bool
  | .literal _ => false
  | .ident other _ => other = name
  | .member target _ _ => target.mentions name
  | .call target _ args _ => target.mentions name || mentionsAny name args
  | .index target position _ => target.mentions name || position.mentions name
  | .unary _ operand => operand.mentions name
  | .binary _ left right => left.mentions name || right.mentions name
  | .conditional condition yes no =>
    condition.mentions name || yes.mentions name || no.mentions name

def mentionsAny (name : String) : List Expr → Bool
  | [] => false
  | e :: es => e.mentions name || mentionsAny name es

end

end Expr

/-- The expression with another name for its parameter. -/
def Lambda.rename (lambda : Lambda) (new : String) : Lambda :=
  ⟨new, lambda.body.rename lambda.param new⟩

/-! ### Outcomes that agree -/

namespace EvalError

/-- The variants that causes come in. -/
inductive Variant where
  | typeMismatch
  | undefinedVariable
  | undefinedMethod
  | divisionByZero
  | misuse
  | argument
  | indexOutOfBounds
  | unreadable
  | malformed
  | other
  deriving DecidableEq, Repr

def Cause.variant : Cause → Variant
  | typeMismatch _ _ => .typeMismatch
  | undefinedVariable _ => .undefinedVariable
  | undefinedMethod _ => .undefinedMethod
  | divisionByZero => .divisionByZero
  | misuse _ => .misuse
  | argument _ => .argument
  | indexOutOfBounds _ _ => .indexOutOfBounds
  | unreadable _ => .unreadable
  | malformed _ => .malformed
  | other _ => .other

/-- Two errors of an expression, before and after its parameter was renamed. -/
structure Renamed (old new : String) (e e' : EvalError) : Prop where
  variant : e'.cause.variant = e.cause.variant
  span : e'.span = e.span
  /-- They differ only in the name that they give the parameter. -/
  cause : e'.cause = e.cause ∨
    e.cause = .misuse (.parameter old) ∧ e'.cause = .misuse (.parameter new)

variable {old new : String} {e e' : EvalError}

theorem Renamed.refl (old new : String) (e : EvalError) : e.Renamed old new e :=
  ⟨rfl, rfl, .inl rfl⟩

end EvalError

namespace Eval
variable {α β : Type} {old new : String}

/-- The same value, or errors that differ only in the name of the parameter. -/
inductive Agree (old new : String) : Eval α → Eval α → Prop
  | value (a : α) : Agree old new (.ok a) (.ok a)
  | error {e e' : EvalError} (h : e.Renamed old new e') : Agree old new (.error e) (.error e')

namespace Agree

theorem refl (old new : String) (x : Eval α) : Agree old new x x := by
  cases x with
  | ok a => exact .value a
  | error e => exact .error (.refl old new e)

/-- What goes on alike with a value goes on alike with outcomes that agree. -/
theorem bind {x x' : Eval α} {f f' : α → Eval β} (h : Agree old new x x')
    (hf : ∀ a, Agree old new (f a) (f' a)) : Agree old new (x >>= f) (x' >>= f') := by
  cases h with
  | value a => exact hf a
  | error h => exact .error h

end Agree

end Eval

/-! ### Evaluation -/

namespace Expr
variable {old new : String} {vars : Variables}

/-- A name that is not the new one is the parameter afterwards if it was before. -/
theorem renamed_eq_iff {name : String} (h : name ≠ new) :
    (if name = old then new else name) = new ↔ name = old := by
  by_cases hn : name = old <;> simp [hn, h]

theorem isParam_rename {e : Expr} (h : e.mentions new = false) :
    (e.rename old new).isParam new = e.isParam old := by
  cases e with
  | ident name span =>
    have hn : name ≠ new := by simpa [mentions] using h
    simp [rename, isParam, renamed_eq_iff hn]
  | _ => simp [rename, isParam]

/-- The type of a static call is no parameter, so it keeps its name. -/
theorem callNamed_rename {name : String} (h : name ≠ new) (method : String) (args : List Value)
    (span : Span) :
    callNamed new vars (if name = old then new else name) method args span =
      callNamed old vars name method args span := by
  by_cases hn : name = old <;> simp [callNamed, hn, h]

theorem eval_call_of_not_ident {param method : String} {target : Expr} {args : List Expr} {span : Span}
    (h : ∀ name place, target ≠ .ident name place) :
    (Expr.call target method args span).eval param vars = (do
      let receiver ← target.eval param vars
      let args ← evalArgs param vars args
      (Library.callMethod receiver method args).within span) := by
  cases target with
  | ident name place => exact absurd rfl (h name place)
  | _ => simp only [eval]

theorem rename_ne_ident {e : Expr} (h : ∀ name place, e ≠ .ident name place) :
    ∀ name place, e.rename old new ≠ .ident name place := by
  cases e with
  | ident name place => exact absurd rfl (h name place)
  | _ => simp [rename]

mutual

/-- An expression in which its parameter is renamed comes to the same. -/
theorem agree_eval : (e : Expr) → e.mentions new = false →
    Eval.Agree old new (e.eval old vars) ((e.rename old new).eval new vars)
  | .literal value, _ => .refl ..
  | .ident name span, h => by
    have hn : name ≠ new := by simpa [mentions] using h
    by_cases hp : name = old
    · simp only [rename, eval, hp, if_true]
      exact .error ⟨rfl, rfl, .inr ⟨rfl, rfl⟩⟩
    · simp only [rename, eval, hp, hn, if_false]
      exact .refl ..
  | .member target name span, h => by
    have ht : target.mentions new = false := by simpa [mentions] using h
    simp only [rename, eval, isParam_rename ht]
    split
    · exact .refl ..
    · exact (agree_eval target ht).bind fun receiver => .refl ..
  | .call target method args span, h => by
    obtain ⟨ht, ha⟩ : target.mentions new = false ∧ mentionsAny new args = false := by
      simpa [mentions] using h
    by_cases hident : ∃ name place, target = .ident name place
    · obtain ⟨name, place, rfl⟩ := hident
      have hn : name ≠ new := by simpa [mentions] using ht
      simp only [rename, eval]
      refine (agree_evalArgs args ha).bind fun values => ?_
      rw [callNamed_rename hn]
      exact .refl ..
    · have hother : ∀ name place, target ≠ .ident name place := fun name place he =>
        hident ⟨name, place, he⟩
      rw [rename, eval_call_of_not_ident hother, eval_call_of_not_ident (rename_ne_ident hother)]
      exact (agree_eval target ht).bind fun receiver =>
        (agree_evalArgs args ha).bind fun values => .refl ..
  | .index target position span, h => by
    obtain ⟨ht, hp⟩ : target.mentions new = false ∧ position.mentions new = false := by
      simpa [mentions] using h
    simp only [rename, eval]
    exact (agree_eval target ht).bind fun receiver =>
      (agree_eval position hp).bind fun i => .refl ..
  | .unary op operand, h => by
    have ho : operand.mentions new = false := by simpa [mentions] using h
    simp only [rename, eval]
    exact (agree_eval operand ho).bind fun v => .refl ..
  | .binary op left right, h => by
    obtain ⟨hl, hr⟩ : left.mentions new = false ∧ right.mentions new = false := by
      simpa [mentions] using h
    have hleft : Eval.Agree old new (left.eval old vars) ((left.rename old new).eval new vars) :=
      agree_eval left hl
    have hright : Eval.Agree old new (right.eval old vars) ((right.rename old new).eval new vars) :=
      agree_eval right hr
    -- What the left operand decides is decided alike; else the right one is asked.
    have hasks : ∀ (a : Value) (f f' : Bool → Eval Value), (∀ b, Eval.Agree old new (f b) (f' b)) →
        Eval.Agree old new (a.asBool >>= f) (a.asBool >>= f') := fun a f f' hf =>
      (Eval.Agree.refl old new a.asBool).bind hf
    cases op with
    | and =>
      simp only [rename, eval]
      refine hleft.bind fun a => hasks a _ _ fun b => ?_
      cases b with
      | false => exact .refl ..
      | true => exact hright.bind fun c => .refl ..
    | or =>
      simp only [rename, eval]
      refine hleft.bind fun a => hasks a _ _ fun b => ?_
      cases b with
      | false => exact hright.bind fun c => .refl ..
      | true => exact .refl ..
    | coalesce =>
      simp only [rename, eval]
      refine hleft.bind fun a => ?_
      split
      · exact hright
      · exact .refl ..
    | _ =>
      simp only [rename, eval]
      exact hleft.bind fun a => hright.bind fun b => .refl ..
  | .conditional condition yes no, h => by
    obtain ⟨⟨hc, hy⟩, hn⟩ : (condition.mentions new = false ∧ yes.mentions new = false) ∧
        no.mentions new = false := by
      simpa [mentions] using h
    simp only [rename, eval]
    refine (agree_eval condition hc).bind fun v =>
      (Eval.Agree.refl old new v.asBool).bind fun b => ?_
    cases b with
    | false => exact agree_eval no hn
    | true => exact agree_eval yes hy

/-- So do the arguments of a call. -/
theorem agree_evalArgs : (es : List Expr) → mentionsAny new es = false →
    Eval.Agree old new (evalArgs old vars es) (evalArgs new vars (renameAll old new es))
  | [], _ => .refl ..
  | e :: es, h => by
    obtain ⟨he, hes⟩ : e.mentions new = false ∧ mentionsAny new es = false := by
      simpa [mentionsAny] using h
    simp only [renameAll, evalArgs]
    exact (agree_eval e he).bind fun v => (agree_evalArgs es hes).bind fun vs => .refl ..

end

end Expr

/-- **The parameter is a bound name.** Under another name for its parameter, one that does not stand as
a bare name in it, an expression has the same value, or fails with an error of the same variant at the
same place, also where one of the two names is the type of static calls. -/
theorem Lambda.agree_rename (lambda : Lambda) (new : String) (vars : Variables)
    (h : lambda.body.mentions new = false) :
    Eval.Agree lambda.param new (lambda.eval vars) ((lambda.rename new).eval vars) :=
  Expr.agree_eval lambda.body h

/-- `x => x.Parse(x.n) + Math.Abs(-2)`, with a method of the host that is called like one of integers. -/
def Lambda.shadowing : Lambda :=
  ⟨"x", .binary .add
    (.call (.ident "x" ⟨5, 6⟩) "Parse" [.member (.ident "x" ⟨13, 14⟩) "n" ⟨15, 16⟩] ⟨7, 12⟩)
    (.call (.ident "Math" ⟨20, 24⟩) "Abs" [.unary .negate (.literal (.int 2))] ⟨25, 28⟩)⟩

/-- With its parameter called `int` it still calls the host, and not the method of integers. -/
theorem Lambda.agree_rename_shadowing :
    let vars : Variables :=
      { bindings := [("n", .str "5")], methods := [("Parse", fun _ => .ok (.int 40))] }
    shadowing.body.mentions "int" = false ∧
      Eval.Agree "x" "int" (shadowing.eval vars) ((shadowing.rename "int").eval vars) ∧
      (shadowing.rename "int").eval vars = .ok (.int 42) := by
  intro vars
  have h : shadowing.body.mentions "int" = false := by decide
  exact ⟨h, agree_rename shadowing "int" vars h, rfl⟩

/-- A name that stands in the expression is another matter: the static call becomes one of the host. -/
example : let lambda : Lambda := ⟨"x", .call (.ident "int" ⟨5, 8⟩) "Parse" [.literal (.str "5")] ⟨9, 14⟩⟩
    lambda.eval {} = .ok (.int 5) ∧
      (lambda.rename "int").eval {} = .error ⟨.undefinedMethod "Parse", some ⟨9, 14⟩⟩ :=
  ⟨rfl, rfl⟩

end Stencil
