import Stencil.Expr
import Stencil.Expr.Library
import Stencil.Variables

/-! The value of an expression. The parameter stands for the variables: reading a member of it looks
a variable up, and calling a method on it calls the host. Any other bare name can only be the type
name in a static call. -/
namespace Stencil

namespace Expr

/-- Whether an expression is just the parameter. -/
def isParam (param : String) : Expr → Bool
  | .ident name _ => name = param
  | _ => false

def applyUnary : UnaryOp → Value → Eval Value
  | .not, v => v.not
  | .negate, v => v.negate

/-- The truth of a comparison. -/
def comparison (test : Ordering → Bool) (a b : Value) : Eval Value :=
  (a.order b).map fun ordering => .bool (test ordering)

/-- The value of a binary operator whose operands are both evaluated. -/
def applyBinary (op : BinaryOp) (a b : Value) : Eval Value :=
  match op with
  | .add => a.add b
  | .subtract => a.subtract b
  | .multiply => a.multiply b
  | .divide => a.divide b
  | .remainder => a.remainder b
  | .equal => .ok (.bool (a.equal b))
  | .notEqual => .ok (.bool (!a.equal b))
  | .less => comparison Ordering.isLT a b
  | .lessEqual => comparison Ordering.isLE a b
  | .greater => comparison Ordering.isGT a b
  | .greaterEqual => comparison Ordering.isGE a b
  | .and => do return .bool ((← a.asBool) && (← b.asBool))
  | .or => do return .bool ((← a.asBool) || (← b.asBool))
  | .coalesce => .ok (if a.isNull then b else a)

/-- A call whose arguments are evaluated, on a bare name. -/
def callNamed (param : String) (vars : Variables) (name method : String) (args : List Value)
    (span : Span) : Eval Value :=
  if name = param then (vars.invoke method args).within span
  else
    match Library.callStatic name method args with
    | some result => result.within span
    | none => .error ⟨.undefinedVariable name, some span⟩

mutual

/-- The value of an expression over some variables. `&&`, `||`, `??` and the conditional evaluate
only what decides them; all other operands are evaluated from left to right. -/
def eval (param : String) (vars : Variables) : Expr → Eval Value
  | .literal value => .ok value
  | .ident name span =>
    if name = param then .error ⟨.misuse (.parameter name), some span⟩
    else .error ⟨.undefinedVariable name, some span⟩
  | .member target name span =>
    if target.isParam param then .ok ((vars.get? name).getD .null)
    else do
      let receiver ← target.eval param vars
      (Library.property receiver name).within span
  | .call (.ident name _) method args span => do
    let args ← evalArgs param vars args
    callNamed param vars name method args span
  | .call target method args span => do
    let receiver ← target.eval param vars
    let args ← evalArgs param vars args
    (Library.callMethod receiver method args).within span
  | .index target position span => do
    let receiver ← target.eval param vars
    let i ← (← position.eval param vars).asInt.within span
    (receiver.element i).within span
  | .unary op operand => do
    let v ← operand.eval param vars
    applyUnary op v
  | .binary .and left right => do
    if ← (← left.eval param vars).asBool then
      return .bool (← (← right.eval param vars).asBool)
    else return .bool false
  | .binary .or left right => do
    if ← (← left.eval param vars).asBool then return .bool true
    else return .bool (← (← right.eval param vars).asBool)
  | .binary .coalesce left right => do
    let v ← left.eval param vars
    if v.isNull then right.eval param vars else return v
  | .binary op left right => do
    let a ← left.eval param vars
    let b ← right.eval param vars
    applyBinary op a b
  | .conditional condition yes no => do
    if ← (← condition.eval param vars).asBool then yes.eval param vars
    else no.eval param vars

def evalArgs (param : String) (vars : Variables) : List Expr → Eval (List Value)
  | [] => .ok []
  | e :: es => do
    let v ← e.eval param vars
    let vs ← evalArgs param vars es
    return v :: vs

end

end Expr

def Lambda.eval (lambda : Lambda) (vars : Variables) : Eval Value :=
  lambda.body.eval lambda.param vars

end Stencil
