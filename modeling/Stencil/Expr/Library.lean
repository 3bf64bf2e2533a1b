import Stencil.Decimal.Reader
import Stencil.Text.Blank
import Stencil.Text.Case
import Stencil.Text.Search
import Stencil.Value.Arithmetic

/-! The methods that expressions know without a host: static ones, called on a name such as `int` or
`Math`, and those of texts and lists. Lengths and positions count characters. -/
namespace Stencil.Expr.Library

open EvalError (BadArgument)
open Value (mismatch)

/-- The argument of a method that takes exactly one. -/
def one (method : String) : List Value → Eval Value
  | [v] => .ok v
  | args => .error (.ofArgument (.count method 1 args.length))

/-- The arguments of a method that takes exactly two. -/
def two (method : String) : List Value → Eval (Value × Value)
  | [v, w] => .ok (v, w)
  | args => .error (.ofArgument (.count method 2 args.length))

/-- The argument at a position counted from zero. -/
def argument (method : String) (args : List Value) (n : Nat) : Eval Value :=
  match args[n]? with
  | some v => .ok v
  | none => .error (.ofArgument (.missing method (n + 1)))

def textArgument (method : String) (args : List Value) (n : Nat) : Eval (List Char) :=
  (argument method args n).map fun v => v.display.toList

/-- A count as a value. -/
def count (n : Nat) : Value :=
  .int (Int64.ofInt n)

def text (cs : List Char) : Value :=
  .str (String.ofList cs)

/-- The whole number that a value is or writes. -/
def parseInt : Value → Eval Value
  | .int i => .ok (.int i)
  | .str s =>
    match Decimal.readInt64? (Text.trim s.toList) with
    | some i => .ok (.int i)
    | none => .error (.ofArgument (.notInteger s))
  | v => .error (mismatch .string v)

/-- The number that a value is or writes, as a double. -/
def parseFloat : Value → Eval Value
  | .int i => .ok (.float (Value.floatOfInt i))
  | .float x => .ok (.float x)
  | .str s =>
    match Decimal.readFloat? (Text.trim s.toList) with
    | some x => .ok (.float x)
    | none => .error (.ofArgument (.notNumber s))
  | v => .error (mismatch .string v)

/-- The truth value that a text writes, in any letter case and with blanks around it. -/
def readBool? (s : String) : Option Bool :=
  match String.ofList ((Text.trim s.toList).map Char.toLower) with
  | "true" => some true
  | "false" => some false
  | _ => none

/-- The truth value that a value is or writes. -/
def parseBool (v : Value) : Eval Value :=
  let truth? : Option Bool :=
    match v with
    | .bool b => some b
    | .str s => readBool? s
    | _ => none
  match truth? with
  | some b => .ok (.bool b)
  | none => .error (.ofArgument (.notBoolean v.display))

/-- The displays of a list, or of all arguments, with a separator between them. -/
def joinText (separator : Value) (rest : List Value) : Value :=
  let parts := match rest with
    | [.list items] => items
    | rest => rest
  text (Text.join separator.display.toList (parts.map fun v => v.display.toList))

def intStatic (method : String) (args : List Value) : Eval Value :=
  match method with
  | "Parse" => one method args >>= parseInt
  | _ => .error ⟨.undefinedMethod s!"int.{method}", none⟩

def floatStatic (method : String) (args : List Value) : Eval Value :=
  match method with
  | "Parse" => one method args >>= parseFloat
  | _ => .error ⟨.undefinedMethod s!"double.{method}", none⟩

def boolStatic (method : String) (args : List Value) : Eval Value :=
  match method with
  | "Parse" => one method args >>= parseBool
  | _ => .error ⟨.undefinedMethod s!"bool.{method}", none⟩

def textStatic (method : String) (args : List Value) : Eval Value :=
  match method with
  | "IsNullOrEmpty" => (one method args).map fun v => .bool v.display.isEmpty
  | "IsNullOrWhiteSpace" =>
    (one method args).map fun v => .bool (v.display.toList.all Text.isBlank)
  | "Concat" => .ok (text (args.flatMap fun v => v.display.toList))
  | "Join" =>
    match args with
    | [] => .error (.ofArgument .noSeparator)
    | separator :: rest => .ok (joinText separator rest)
  | _ => .error ⟨.undefinedMethod s!"string.{method}", none⟩

def magnitude : Value → Eval Value
  | .int i => Value.ofExact i.toInt.natAbs
  | v => v.asFloat.map fun x => .float x.abs

def mathStatic (method : String) (args : List Value) : Eval Value :=
  match method with
  | "Max" => do
    let (a, b) ← two method args
    return if (← a.order b).isGE then a else b
  | "Min" => do
    let (a, b) ← two method args
    return if (← a.order b).isLE then a else b
  | "Abs" => one method args >>= magnitude
  | "Round" => do return .float (← (← one method args).asFloat).round
  | "Floor" => do return .float (← (← one method args).asFloat).floor
  | "Ceiling" => do return .float (← (← one method args).asFloat).ceil
  | _ => .error ⟨.undefinedMethod s!"Math.{method}", none⟩

/-- Call a static method of a type name; none, if the name is no type. -/
def callStatic (type method : String) (args : List Value) : Option (Eval Value) :=
  match type with
  | "int" | "long" | "Int32" | "Int64" => some (intStatic method args)
  | "double" | "float" | "decimal" | "Double" => some (floatStatic method args)
  | "bool" | "Boolean" => some (boolStatic method args)
  | "string" | "String" => some (textStatic method args)
  | "Math" => some (mathStatic method args)
  | _ => none

def property (receiver : Value) (name : String) : Eval Value :=
  match receiver, name with
  | .str s, "Length" => .ok (count s.length)
  | .list items, "Count" => .ok (count items.length)
  | .list items, "Length" => .ok (count items.length)
  | receiver, name => .error (.ofMisuse (.property receiver.kind name))

/-- A position in a text of a certain length, its end included. -/
def positionIn (length : Nat) (index : Int64) : Eval Nat :=
  match position? index with
  | some n =>
    if n ≤ length then .ok n else .error ⟨.indexOutOfBounds index length, none⟩
  | none => .error ⟨.indexOutOfBounds index length, none⟩

/-- The part of a text from a position on, of a given length or up to the end. -/
def substring (s : List Char) (args : List Value) : Eval Value := do
  let start ← (← argument "Substring" args 0).asInt >>= positionIn s.length
  let rest := s.drop start
  match args[1]? with
  | some v =>
    let length ← v.asInt >>= positionIn rest.length
    return text (rest.take length)
  | none => return text rest

def textMethod (s : List Char) (method : String) (args : List Value) : Eval Value :=
  match method with
  | "ToUpper" => .ok (text (Text.upper s))
  | "ToLower" => .ok (text (Text.lower s))
  | "Trim" => .ok (text (Text.trim s))
  | "Split" => do
    let separator ← textArgument method args 0
    if separator.isEmpty then .error (.ofArgument .emptySeparator)
    else .ok (.list ((Text.split separator s).map text))
  | "Contains" => do
    let piece ← textArgument method args 0
    return .bool (Text.contains piece s)
  | "StartsWith" => do
    let piece ← textArgument method args 0
    return .bool (piece.isPrefixOf s)
  | "EndsWith" => do
    let piece ← textArgument method args 0
    return .bool (piece.isSuffixOf s)
  | "Replace" => do
    let piece ← textArgument method args 0
    let replacement ← textArgument method args 1
    if piece.isEmpty then .error (.ofArgument .emptyPattern)
    else .ok (text (Text.replace piece replacement s))
  | "IndexOf" => do
    let piece ← textArgument method args 0
    match Text.find? piece s with
    | some n => return count n
    | none => return .int (-1)
  | "Substring" => substring s args
  | _ => .error (.ofMisuse (.method .string method))

def listMethod (items : List Value) (method : String) (args : List Value) : Eval Value :=
  match method with
  | "Contains" => (one method args).map fun v => .bool (items.any fun item => item.equal v)
  | "Reverse" => .ok (.list items.reverse)
  | _ => .error (.ofMisuse (.method .list method))

def callMethod (receiver : Value) (method : String) (args : List Value) : Eval Value :=
  if method = "ToString" then
    if args.isEmpty then .ok (.str receiver.display)
    else .error (.ofArgument (.count method 0 args.length))
  else
    match receiver with
    | .str s => textMethod s.toList method args
    | .list items => listMethod items method args
    | v => .error (.ofMisuse (.method v.kind method))

end Stencil.Expr.Library
