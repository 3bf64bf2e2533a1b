import Stencil.Text.Quoted
import Stencil.Variables

/-! Values and variables as a programmer reads them: every value under the name of its kind, texts
in quotes. -/
namespace Stencil

mutual

/-- A value under the name of its kind. -/
def Value.inspect : Value → String
  | .null => "Null"
  | .bool b => s!"Bool({b})"
  | .int i => s!"Int({i.toInt})"
  | .float x => s!"Float({Decimal.Layout.inspected.write x})"
  | .str s => s!"Str({Text.quote s})"
  | .list items => "List([" ++ ", ".intercalate (Value.inspectItems items) ++ "])"

def Value.inspectItems : List Value → List String
  | [] => []
  | item :: items => item.inspect :: Value.inspectItems items

end

/-- Insert a name in front of the first later one. -/
def insertName (name : String) : List String → List String
  | [] => [name]
  | n :: rest => if n ≤ name then n :: insertName name rest else name :: n :: rest

def sortNames (names : List String) : List String :=
  names.foldl (fun sorted name => insertName name sorted) []

/-- The variables with their values, the names of the host methods, and whether names follow a rule
of their own. -/
def Variables.inspect (vars : Variables) : String :=
  let bindings := vars.bindings.map fun b => Text.quote b.1 ++ ": " ++ b.2.inspect
  let methods := (sortNames (vars.methods.map (·.1))).map Text.quote
  "Variables \x7b values: \x7b" ++ ", ".intercalate bindings ++ "\x7d, methods: ["
    ++ ", ".intercalate methods ++ s!"], custom_validator: {vars.validator.isSome} \x7d"

end Stencil
