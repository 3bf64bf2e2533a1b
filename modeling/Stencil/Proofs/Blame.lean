import Stencil.Proofs.Malformed
import Stencil.Proofs.Renaming

/-! Which part of an expression an error blames.

Neither the operators nor the methods that expressions know say where they fail (`Eval.Bare`). So the
place of an error is the one that the evaluation adds, which is that of a node of the expression, or it
was given by a method of the host (`Lambda.blames_eval`). -/
namespace Stencil

/-! ### Errors without a place -/

/-- No error has a place. -/
def Eval.Bare {α : Type} (x : Eval α) : Prop :=
  x.Fails (·.span = none)

namespace Value

theorem bare_asBool (v : Value) : v.asBool.Bare := by
  cases v with
  | bool b => exact .ok b
  | _ => exact .error rfl

theorem bare_asInt (v : Value) : v.asInt.Bare := by
  cases v with
  | int i => exact .ok i
  | _ => exact .error rfl

theorem bare_asFloat (v : Value) : v.asFloat.Bare := by
  cases v with
  | int i => exact .ok _
  | float x => exact .ok x
  | _ => exact .error rfl

theorem bare_elementAt {α : Type} (items : List α) (i : Int64) : (elementAt items i).Bare := by
  unfold elementAt
  split
  · exact .ok _
  · exact .error rfl

theorem bare_element (v : Value) (i : Int64) : (v.element i).Bare := by
  cases v with
  | list items => exact bare_elementAt items i
  | str s => exact (bare_elementAt s.toList i).map _
  | _ => exact .error rfl

/-! ### Operators -/

theorem bare_ofExact (n : Int) : (ofExact n).Bare := by
  unfold ofExact
  split
  · exact .ok _
  · exact .error rfl

theorem bare_negate (v : Value) : v.negate.Bare := by
  cases v with
  | int i => exact bare_ofExact _
  | float x => exact .ok _
  | _ => exact .error rfl

/-- Numbers are combined without a place if whole ones are. -/
theorem bare_combine {operation : EvalError.Joint} {exact : Int → Int → Eval Value}
    {float : Float → Float → Float} (h : ∀ i j, (exact i j).Bare) (a b : Value) :
    (combine operation exact float a b).Bare := by
  unfold combine
  split
  · exact h _ _
  · exact .ok _
  · exact .ok _
  · exact .ok _
  · exact .error rfl

theorem bare_add (a b : Value) : (a.add b).Bare := by
  unfold add
  split
  · exact .ok _
  · exact .ok _
  · exact .ok _
  · exact bare_combine (fun _ _ => bare_ofExact _) _ _

theorem bare_divide (a b : Value) : (a.divide b).Bare := by
  refine bare_combine (fun i j => ?_) a b
  split
  · exact .error rfl
  · exact bare_ofExact _

theorem bare_remainder (a b : Value) : (a.remainder b).Bare := by
  refine bare_combine (fun i j => ?_) a b
  split
  · exact .error rfl
  · split
    · exact bare_ofExact _
    · exact .error rfl

theorem bare_order (a b : Value) : (a.order b).Bare := by
  unfold order
  dsimp only
  split
  · exact .ok _
  · exact .error rfl
  · next e he =>
    split at he
    case h_6 =>
      cases he
      exact .error rfl
    all_goals cases he

end Value

namespace Expr

theorem bare_applyUnary (op : UnaryOp) (v : Value) : (applyUnary op v).Bare := by
  cases op with
  | not => exact v.bare_asBool.bind fun _ => .ok _
  | negate => exact v.bare_negate

theorem bare_applyBinary (op : BinaryOp) (a b : Value) : (applyBinary op a b).Bare := by
  cases op with
  | add => exact a.bare_add b
  | subtract | multiply => exact Value.bare_combine (fun _ _ => Value.bare_ofExact _) a b
  | divide => exact a.bare_divide b
  | remainder => exact a.bare_remainder b
  | equal | notEqual | coalesce => exact .ok _
  | less | lessEqual | greater | greaterEqual => exact (a.bare_order b).map _
  | and | or => exact a.bare_asBool.bind fun _ => b.bare_asBool.bind fun _ => .ok _

/-! ### Methods -/

namespace Library

theorem bare_one (method : String) (args : List Value) : (one method args).Bare := by
  unfold one
  split
  · exact .ok _
  · exact .error rfl

theorem bare_two (method : String) (args : List Value) : (two method args).Bare := by
  unfold two
  split
  · exact .ok _
  · exact .error rfl

theorem bare_argument (method : String) (args : List Value) (n : Nat) :
    (argument method args n).Bare := by
  unfold argument
  split
  · exact .ok _
  · exact .error rfl

theorem bare_textArgument (method : String) (args : List Value) (n : Nat) :
    (textArgument method args n).Bare :=
  (bare_argument method args n).map _

theorem bare_parseInt (v : Value) : (parseInt v).Bare := by
  unfold parseInt
  split
  · exact .ok _
  · split
    · exact .ok _
    · exact .error rfl
  · exact .error rfl

theorem bare_parseFloat (v : Value) : (parseFloat v).Bare := by
  unfold parseFloat
  split
  · exact .ok _
  · exact .ok _
  · split
    · exact .ok _
    · exact .error rfl
  · exact .error rfl

theorem bare_parseBool (v : Value) : (parseBool v).Bare := by
  unfold parseBool
  dsimp only
  split
  · exact .ok _
  · exact .error rfl

theorem bare_magnitude (v : Value) : (magnitude v).Bare := by
  unfold magnitude
  split
  · exact Value.bare_ofExact _
  · exact (Value.bare_asFloat v).map _

/-- A type whose only method reads a value. -/
theorem bare_parse {parse : Value → Eval Value} {e : EvalError} (hp : ∀ v, (parse v).Bare)
    (he : e.span = none) (method : String) (args : List Value) :
    Eval.Bare (match method with
      | "Parse" => one method args >>= parse
      | _ => .error e) := by
  split
  · exact (bare_one _ args).bind hp
  · exact .error he

theorem bare_textStatic (method : String) (args : List Value) : (textStatic method args).Bare := by
  unfold textStatic
  split
  · exact (bare_one _ args).map _
  · exact (bare_one _ args).map _
  · exact .ok _
  · split
    · exact .error rfl
    · exact .ok _
  · exact .error rfl

theorem bare_mathStatic (method : String) (args : List Value) : (mathStatic method args).Bare := by
  -- One of two numbers, by their order.
  have hpick : ∀ (method : String) (pick : Value → Value → Ordering → Value),
      Eval.Bare (two method args >>= fun pair => do
        return pick pair.1 pair.2 (← pair.1.order pair.2)) := fun method pick =>
    (bare_two method args).bind fun pair => (pair.1.bare_order pair.2).bind fun _ => .ok _
  have hround : ∀ (method : String) (round : Float → Value),
      Eval.Bare (do return round (← (← one method args).asFloat)) := fun method round =>
    (bare_one method args).bind fun v => v.bare_asFloat.bind fun _ => .ok _
  unfold mathStatic
  split
  · exact hpick "Max" fun a b ordering => if ordering.isGE then a else b
  · exact hpick "Min" fun a b ordering => if ordering.isLE then a else b
  · exact (bare_one _ args).bind bare_magnitude
  · exact hround "Round" fun x => .float x.round
  · exact hround "Floor" fun x => .float x.floor
  · exact hround "Ceiling" fun x => .float x.ceil
  · exact .error rfl

theorem bare_callStatic {type method : String} {args : List Value} {result : Eval Value}
    (h : callStatic type method args = some result) : result.Bare := by
  have hint : (intStatic method args).Bare := bare_parse bare_parseInt rfl method args
  have hfloat : (floatStatic method args).Bare := bare_parse bare_parseFloat rfl method args
  have hbool : (boolStatic method args).Bare := bare_parse bare_parseBool rfl method args
  have htext := bare_textStatic method args
  have hmath := bare_mathStatic method args
  unfold callStatic at h
  split at h <;> cases h <;> assumption

theorem bare_property (receiver : Value) (name : String) : (property receiver name).Bare := by
  unfold property
  split
  · exact .ok _
  · exact .ok _
  · exact .ok _
  · exact .error rfl

theorem bare_positionIn (length : Nat) (index : Int64) : (positionIn length index).Bare := by
  unfold positionIn
  split
  · split
    · exact .ok _
    · exact .error rfl
  · exact .error rfl

theorem bare_substring (s : List Char) (args : List Value) : (substring s args).Bare := by
  have hposition : ∀ (v : Value) (length : Nat), (v.asInt >>= positionIn length).Bare :=
    fun v length => v.bare_asInt.bind (bare_positionIn length)
  unfold substring
  refine (bare_argument _ args 0).bind fun v => (hposition v s.length).bind fun start => ?_
  dsimp only
  split
  · exact (hposition _ _).bind fun _ => .ok _
  · exact .ok _

theorem bare_textMethod (s : List Char) (method : String) (args : List Value) :
    (textMethod s method args).Bare := by
  have hargument := bare_textArgument method args
  unfold textMethod
  split
  · exact .ok _
  · exact .ok _
  · exact .ok _
  · refine (hargument 0).bind fun separator => ?_
    split
    · exact .error rfl
    · exact .ok _
  · exact (hargument 0).bind fun _ => .ok _
  · exact (hargument 0).bind fun _ => .ok _
  · exact (hargument 0).bind fun _ => .ok _
  · refine (hargument 0).bind fun piece => (hargument 1).bind fun replacement => ?_
    split
    · exact .error rfl
    · exact .ok _
  · refine (hargument 0).bind fun piece => ?_
    split
    · exact .ok _
    · exact .ok _
  · exact bare_substring s args
  · exact .error rfl

theorem bare_listMethod (items : List Value) (method : String) (args : List Value) :
    (listMethod items method args).Bare := by
  unfold listMethod
  split
  · exact (bare_one _ args).map _
  · exact .ok _
  · exact .error rfl

theorem bare_callMethod (receiver : Value) (method : String) (args : List Value) :
    (callMethod receiver method args).Bare := by
  unfold callMethod
  split
  · split
    · exact .ok _
    · exact .error rfl
  · split
    · exact bare_textMethod _ method args
    · exact bare_listMethod _ method args
    · exact .error rfl

end Library

/-! ### Nodes -/

mutual

/-- The nodes of an expression: itself, and those of its parts. -/
def nodes : Expr → List Expr
  | .literal value => [.literal value]
  | .ident name span => [.ident name span]
  | .member target name span => .member target name span :: target.nodes
  | .call target method args span => .call target method args span :: (target.nodes ++ nodesOfAll args)
  | .index target position span => .index target position span :: (target.nodes ++ position.nodes)
  | .unary op operand => .unary op operand :: operand.nodes
  | .binary op left right => .binary op left right :: (left.nodes ++ right.nodes)
  | .conditional condition yes no =>
    .conditional condition yes no :: (condition.nodes ++ yes.nodes ++ no.nodes)

def nodesOfAll : List Expr → List Expr
  | [] => []
  | e :: es => e.nodes ++ nodesOfAll es

end

@[simp]
theorem nodesOfAll_singleton (e : Expr) : nodesOfAll [e] = e.nodes :=
  List.append_nil _

def span? : Expr → Option Span
  | .ident _ span | .member _ _ span | .call _ _ _ span | .index _ _ span => some span
  | _ => none

/-- A host method that is called in the expression gave this error. -/
def HostGave (param : String) (vars : Variables) (e : Expr) (error : EvalError) : Prop :=
  ∃ place name args span method values, .call (.ident param place) name args span ∈ e.nodes ∧
    vars.methods.lookup name = some method ∧ method values = .error error

/-- An error with a place blames a node of the expression, or a host method gave it as it is. -/
def Blames (param : String) (vars : Variables) (whole : Expr) (e : EvalError) : Prop :=
  ∀ span, e.span = some span →
    (∃ node ∈ whole.nodes, node.span? = some span) ∨ whole.HostGave param vars e

namespace Blames
variable {α : Type} {param : String} {vars : Variables} {whole : Expr}

theorem of_bare {x : Eval α} (h : x.Bare) : x.Fails (Blames param vars whole) := by
  refine h.mono fun e he span hspan => ?_
  rw [he] at hspan
  cases hspan

theorem of_node {node : Expr} {e : EvalError} {span : Span} (hn : node ∈ whole.nodes)
    (hs : node.span? = some span) (he : e.span = some span) : Blames param vars whole e := by
  intro span' hspan
  rw [he] at hspan
  cases hspan
  exact .inl ⟨node, hn, hs⟩

/-- An error without a place gets that of a node. -/
theorem within {x : Eval α} {node : Expr} {span : Span} (h : x.Bare) (hn : node ∈ whole.nodes)
    (hs : node.span? = some span) : (x.within span).Fails (Blames param vars whole) := by
  cases x with
  | ok a => exact .ok a
  | error e =>
    have he : e.span = none := h e rfl
    exact .error (of_node hn hs (by simp [EvalError.within, he]))

end Blames

section
variable {param : String} {vars : Variables} {whole : Expr}

/-- A host method that says where it failed is taken at its word. -/
theorem blames_invoke {name place args span} (values : List Value)
    (hn : .call (.ident param place) name args span ∈ whole.nodes) :
    ((vars.invoke name values).within span).Fails (Blames param vars whole) := by
  unfold Variables.invoke
  split
  · next method hmethod =>
    cases hvalue : method values with
    | ok v => exact .ok v
    | error e =>
      cases he : e.span with
      | none => exact .error (Blames.of_node hn rfl (by simp [EvalError.within, he]))
      | some own =>
        have hsame : e.within span = e := by
          cases e
          cases he
          rfl
        have hgave : whole.HostGave param vars e :=
          ⟨place, name, args, span, method, values, hn, hmethod, hvalue⟩
        have hblames : Blames param vars whole (e.within span) := fun _ _ => .inr (hsame.symm ▸ hgave)
        exact .error hblames
  · exact .error (Blames.of_node hn rfl rfl)

theorem blames_callNamed {name place method args span} (values : List Value)
    (hn : .call (.ident name place) method args span ∈ whole.nodes) :
    (callNamed param vars name method values span).Fails (Blames param vars whole) := by
  unfold callNamed
  split
  · next h =>
    subst h
    exact blames_invoke values hn
  · split
    · next result hresult => exact Blames.within (Library.bare_callStatic hresult) hn rfl
    · exact .error (Blames.of_node hn rfl rfl)

mutual

/-- **An error of an expression blames one of its nodes**, wherever the expression stands. -/
theorem blames_eval : (e : Expr) → e.nodes ⊆ whole.nodes →
    (e.eval param vars).Fails (Blames param vars whole)
  | .literal value, _ => .ok value
  | .ident name span, h => by
    have hn := h List.mem_cons_self
    simp only [eval]
    split
    · exact .error (Blames.of_node hn rfl rfl)
    · exact .error (Blames.of_node hn rfl rfl)
  | .member target name span, h => by
    obtain ⟨hn, ht⟩ := List.cons_subset.1 h
    simp only [eval]
    split
    · exact .ok _
    · exact (blames_eval target ht).bind fun receiver =>
        Blames.within (Library.bare_property receiver name) hn rfl
  | .call target method args span, h => by
    obtain ⟨hn, hparts⟩ := List.cons_subset.1 h
    obtain ⟨ht, ha⟩ := List.append_subset.1 hparts
    by_cases hident : ∃ name place, target = .ident name place
    · obtain ⟨name, place, rfl⟩ := hident
      simp only [eval]
      exact (blames_evalArgs args ha).bind fun values => blames_callNamed values hn
    · rw [eval_call_of_not_ident fun name place he => hident ⟨name, place, he⟩]
      exact (blames_eval target ht).bind fun receiver => (blames_evalArgs args ha).bind fun values =>
        Blames.within (Library.bare_callMethod receiver method values) hn rfl
  | .index target position span, h => by
    obtain ⟨hn, hparts⟩ := List.cons_subset.1 h
    obtain ⟨ht, hp⟩ := List.append_subset.1 hparts
    simp only [eval]
    exact (blames_eval target ht).bind fun receiver => (blames_eval position hp).bind fun v =>
      (Blames.within v.bare_asInt hn rfl).bind fun i => Blames.within (receiver.bare_element i) hn rfl
  | .unary op operand, h => by
    simp only [eval]
    exact (blames_eval operand (List.cons_subset.1 h).2).bind fun v => Blames.of_bare (bare_applyUnary op v)
  | .binary op left right, h => by
    obtain ⟨hl, hr⟩ := List.append_subset.1 (List.cons_subset.1 h).2
    have hleft : (left.eval param vars).Fails (Blames param vars whole) := blames_eval left hl
    have hright : (right.eval param vars).Fails (Blames param vars whole) := blames_eval right hr
    have hbool : ∀ v : Value, v.asBool.Fails (Blames param vars whole) := fun v =>
      Blames.of_bare v.bare_asBool
    cases op with
    | and =>
      simp only [eval]
      refine hleft.bind fun a => (hbool a).bind fun b => ?_
      split
      · exact hright.bind fun c => (hbool c).bind fun _ => .ok _
      · exact .ok _
    | or =>
      simp only [eval]
      refine hleft.bind fun a => (hbool a).bind fun b => ?_
      split
      · exact .ok _
      · exact hright.bind fun c => (hbool c).bind fun _ => .ok _
    | coalesce =>
      simp only [eval]
      refine hleft.bind fun a => ?_
      split
      · exact hright
      · exact .ok _
    | _ =>
      simp only [eval]
      exact hleft.bind fun a => hright.bind fun b => Blames.of_bare (bare_applyBinary _ a b)
  | .conditional condition yes no, h => by
    obtain ⟨hparts, hn⟩ := List.append_subset.1 (List.cons_subset.1 h).2
    obtain ⟨hc, hy⟩ := List.append_subset.1 hparts
    simp only [eval]
    refine (blames_eval condition hc).bind fun v => (Blames.of_bare v.bare_asBool).bind fun b => ?_
    split
    · exact blames_eval yes hy
    · exact blames_eval no hn

/-- So does an error of the arguments of a call. -/
theorem blames_evalArgs : (es : List Expr) → nodesOfAll es ⊆ whole.nodes →
    (evalArgs param vars es).Fails (Blames param vars whole)
  | [], _ => .ok []
  | e :: es, h => by
    obtain ⟨he, hes⟩ := List.append_subset.1 h
    simp only [evalArgs]
    exact (blames_eval e he).bind fun v => (blames_evalArgs es hes).bind fun vs => .ok _

end

end

end Expr

/-- **An error blames a node of the expression**, or a host method gave it as it is. -/
theorem Lambda.blames_eval (lambda : Lambda) (vars : Variables) :
    (lambda.eval vars).Fails (Expr.Blames lambda.param vars lambda.body) :=
  Expr.blames_eval lambda.body (List.Subset.refl _)

end Stencil
