import Stencil.Decimal.Layout

/-! Values: what names stand for and what expressions yield.

A rendered text holds only text; `display` is the one way from a value to it. -/
namespace Stencil

/-- A value of a template. -/
inductive Value where
  | null
  | bool (b : Bool)
  /-- A whole number of 64 bits. -/
  | int (i : Int64)
  | float (x : Float)
  | str (s : String)
  | list (items : List Value)
  deriving Inhabited

namespace Value

/-- The kinds of value, which is what a message about a value names. -/
inductive Kind where
  | null
  | bool
  | int
  | float
  | string
  | list
  deriving DecidableEq, Repr, Inhabited

def Kind.name : Kind → String
  | null => "null"
  | bool => "bool"
  | int => "int"
  | float => "float"
  | string => "string"
  | list => "list"

def kind : Value → Kind
  | null => .null
  | bool _ => .bool
  | int _ => .int
  | float _ => .float
  | str _ => .string
  | list _ => .list

def isNull : Value → Bool
  | null => true
  | _ => false

def displayFloat (x : Float) : String :=
  Decimal.Layout.plain.write x

mutual

/-- The text that a value is rendered as. Truth values read `True` and `False`, no value reads as
the empty text, and the items of a list stand between commas. -/
def display : Value → String
  | null => ""
  | bool true => "True"
  | bool false => "False"
  | int i => toString i.toInt
  | float x => displayFloat x
  | str s => s
  | list items => displayItems items

/-- The displays of the items with commas between them. -/
def displayItems : List Value → String
  | [] => ""
  | [item] => item.display
  | item :: items => item.display ++ "," ++ displayItems items

end

mutual

/-- Whether two values are built alike: same kind, and equal in every part. A double that is not a
number differs from itself. -/
def same : Value → Value → Bool
  | null, null => true
  | bool a, bool b => a == b
  | int a, int b => a == b
  | float a, float b => a == b
  | str a, str b => a == b
  | list a, list b => sameItems a b
  | _, _ => false

def sameItems : List Value → List Value → Bool
  | [], [] => true
  | a :: as, b :: bs => a.same b && sameItems as bs
  | _, _ => false

end

end Value

end Stencil
