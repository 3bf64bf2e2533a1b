import Stencil.Integer
import Stencil.Json.Printer
import Stencil.Json.Reader
import Stencil.Variables

/-! Values and variables from JSON. A whole number that fits 64 bits signed stays whole, any other
number becomes a double, and an object, which no value corresponds to, becomes its own text. -/
namespace Stencil

/-- A JSON number as a value. -/
def Value.ofNumber : Json.Number → Value
  | .int n =>
    match int64? n with
    | some i => .int i
    | none => .float (Float.ofInt n)
  | .float x => .float x

mutual

/-- A JSON value as a value of a template. -/
def Value.ofJson : Json → Value
  | .null => .null
  | .bool b => .bool b
  | .number n => .ofNumber n
  | .text s => .str s
  | .array items => .list (Value.ofJsonItems items)
  | .object members => .str (Json.object members).compact
  | .unreadable => .null

def Value.ofJsonItems : List Json → List Value
  | [] => []
  | item :: items => Value.ofJson item :: Value.ofJsonItems items

end

namespace Variables

/-- Variables from a text that holds a JSON object, in the order of its members. -/
def ofJson (text : String) : Except Json.Fault Variables := do
  let members ← Json.readObject text
  return { bindings := (Json.distinct members).map fun member => (member.1, .ofJson member.2) }

/-- To each name its last member is bound. -/
theorem bound?_ofJson {text : String} {members : List (String × Json)}
    (h : Json.readObject text = .ok members) :
    ∃ vars, ofJson text = .ok vars ∧
      ∀ name, vars.bound? name = ((Json.object members).member? name).map .ofJson := by
  refine ⟨_, by rw [ofJson, h]; rfl, fun name => ?_⟩
  rw [bound?, Bindings.lookup_map, Json.lookup_distinct]

end Variables

end Stencil
