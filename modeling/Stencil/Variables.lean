import Stencil.Bindings
import Stencil.Name
import Stencil.Value.Access

/-! The variables of a template, in the order in which they were first set, with the methods that
expressions can call on them and the rule that says which names are acceptable. -/
namespace Stencil

/-- A method that the host program offers to expressions. -/
abbrev HostMethod := List Value → Eval Value

/-- Variables, host methods and the rule for names. -/
structure Variables where
  /-- The bindings; no name occurs twice. -/
  bindings : List (String × Value) := []
  methods : List (String × HostMethod) := []
  /-- The rule for names, where it is not the usual one. -/
  validator : Option (String → Bool) := none
  deriving Inhabited

namespace Variables

/-- The value bound to exactly that name. -/
def bound? (vars : Variables) (name : String) : Option Value :=
  vars.bindings.lookup name

/-- The value of a name. Where `people[2]` is not bound itself it is the element of `people`. -/
def get? (vars : Variables) (name : String) : Option Value :=
  match vars.bound? name with
  | some value => some value
  | none => do
    let (base, digits) ← Name.splitIndex? name
    let value ← vars.bound? base
    let index ← Decimal.readInt64? digits.toList
    (value.element index).toOption

def contains (vars : Variables) (name : String) : Bool :=
  (vars.get? name).isSome

/-- Bind a name. A name that is bound already keeps its place. -/
def set (vars : Variables) (name : String) (value : Value) : Variables :=
  { vars with bindings := Bindings.put name value vars.bindings }

/-- Unbind a name. The others keep their order. -/
def remove (vars : Variables) (name : String) : Variables :=
  { vars with bindings := vars.bindings.filter fun binding => binding.1 != name }

/-- Offer a host method, in place of an earlier one of that name. -/
def register (vars : Variables) (name : String) (method : HostMethod) : Variables :=
  { vars with methods := (name, method) :: vars.methods.filter fun m => m.1 != name }

def invoke (vars : Variables) (name : String) (args : List Value) : Eval Value :=
  match vars.methods.lookup name with
  | some method => method args
  | none => .error ⟨.undefinedMethod name, none⟩

/-- Whether a name is acceptable in a token. -/
def accepts (vars : Variables) (name : String) : Bool :=
  match vars.validator with
  | some rule => rule name
  | none => Name.isValid name

/-- Variables with these bindings, made in order. -/
def ofList (bindings : List (String × Value)) : Variables :=
  { bindings := Bindings.ofList bindings }

/-! ### What is bound -/

/-- A name that is set has its value, and every other name has the value that it had. -/
theorem bound?_set (vars : Variables) (name : String) (value : Value) (other : String) :
    (vars.set name value).bound? other = if other = name then some value else vars.bound? other :=
  Bindings.lookup_put name value vars.bindings other

/-- A name that is removed has no value, and every other name has the value that it had. -/
theorem bound?_remove (vars : Variables) (name other : String) :
    (vars.remove name).bound? other = if other = name then none else vars.bound? other :=
  Bindings.lookup_filter name vars.bindings other

@[simp] theorem bound?_set_self (vars : Variables) (name : String) (value : Value) :
    (vars.set name value).bound? name = some value := by
  rw [bound?_set, if_pos rfl]

end Variables

end Stencil
