import Stencil.Bindings

/-! JSON values as they stand in a text: members keep their order, and a repeated name is kept. -/
namespace Stencil

/-- A number. Whole numbers are exact as long as 64 bits hold them, signed or unsigned. -/
inductive Json.Number where
  /-- A whole number from `-2 ^ 63` to `2 ^ 64 - 1`, spelled without point and exponent. -/
  | int (n : Int)
  | float (x : Float)
  deriving Inhabited

inductive Json where
  | null
  | bool (b : Bool)
  | number (n : Json.Number)
  | text (s : String)
  | array (items : List Json)
  | object (members : List (String × Json))
  /-- Something well formed that stands for no value, such as a number out of range. A tolerant
  reader passes over it where its value is not asked for. -/
  | unreadable
  deriving Inhabited

namespace Json

/-- Why a text is not the JSON that was asked for. -/
inductive Fault where
  | ended
  | malformed
  /-- The text is JSON of another shape. -/
  | mistyped
  deriving DecidableEq, Repr

/-- The members with each name once, in order of first appearance, with its last value. -/
def distinct (members : List (String × Json)) : List (String × Json) :=
  Bindings.ofList members

/-- The last member of that name. -/
def member? (json : Json) (name : String) : Option Json :=
  match json with
  | object members => members.reverse.lookup name
  | _ => none

theorem lookup_distinct (members : List (String × Json)) (name : String) :
    (distinct members).lookup name = (object members).member? name :=
  Bindings.lookup_ofList members name

end Json

end Stencil
