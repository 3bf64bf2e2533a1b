import Stencil.Integer
import Stencil.Expr.Error

/-! Looking into a value: the views that demand one kind, and elements by position. -/
namespace Stencil.Value

/-- The error for a value that is not of the kind asked for. -/
def mismatch (expected : Kind) (v : Value) : EvalError :=
  ⟨.typeMismatch expected v.kind, none⟩

def asBool : Value → Eval Bool
  | bool b => .ok b
  | v => .error (mismatch .bool v)

def asInt : Value → Eval Int64
  | int i => .ok i
  | v => .error (mismatch .int v)

/-- A whole number as the nearest double. -/
def floatOfInt (i : Int64) : Float :=
  Float.ofInt i.toInt

def asFloat : Value → Eval Float
  | int i => .ok (floatOfInt i)
  | float x => .ok x
  | v => .error (mismatch .float v)

def asStr : Value → Eval String
  | str s => .ok s
  | v => .error (mismatch .string v)

def asList : Value → Eval (List Value)
  | list items => .ok items
  | v => .error (mismatch .list v)

/-- The element of `items` at an index counted from zero. -/
def elementAt {α : Type} (items : List α) (index : Int64) : Eval α :=
  match (position? index).bind fun n => items[n]? with
  | some item => .ok item
  | none => .error ⟨.indexOutOfBounds index items.length, none⟩

/-- The element of a list, or the character of a text, at an index counted from zero. -/
def element (v : Value) (index : Int64) : Eval Value :=
  match v with
  | list items => elementAt items index
  | str s => (elementAt s.toList index).map fun c => str c.toString
  | v => .error (.ofMisuse (.index v.kind))

end Stencil.Value
