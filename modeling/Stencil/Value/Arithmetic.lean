import Stencil.Value.Access

/-! Operators on values. Whole numbers are exact or fail; a whole number beside a double becomes a
double; a text joined to anything takes in its display. -/
namespace Stencil.Value

open EvalError (Joint)

/-- A whole number result, or the overflow error. -/
def ofExact (n : Int) : Eval Value :=
  match int64? n with
  | some i => .ok (int i)
  | none => .error (.ofMisuse .overflow)

/-- The error for two values that do not go together. -/
def unjoined (operation : Joint) (a b : Value) : EvalError :=
  .ofMisuse (.join operation a.kind b.kind)

def not (v : Value) : Eval Value := do
  return bool (!(← v.asBool))

def negate : Value → Eval Value
  | int i => ofExact (-i.toInt)
  | float x => .ok (float (-x))
  | v => .error (.ofMisuse (.negate v.kind))

/-- Two numbers combined exactly if both are whole, and as doubles otherwise. -/
def combine (operation : Joint) (exact : Int → Int → Eval Value) (float : Float → Float → Float)
    (a b : Value) : Eval Value :=
  match a, b with
  | int i, int j => exact i.toInt j.toInt
  | int i, .float y => .ok (.float (float (floatOfInt i) y))
  | .float x, int j => .ok (.float (float x (floatOfInt j)))
  | .float x, .float y => .ok (.float (float x y))
  | a, b => .error (unjoined operation a b)

/-- Sum of numbers, or concatenation of texts or lists. -/
def add : Value → Value → Eval Value
  | str s, b => .ok (str (s ++ b.display))
  | a, str t => .ok (str (a.display ++ t))
  | list as, list bs => .ok (list (as ++ bs))
  | a, b => combine .add (fun i j => ofExact (i + j)) (· + ·) a b

def subtract (a b : Value) : Eval Value :=
  combine .subtract (fun i j => ofExact (i - j)) (· - ·) a b

def multiply (a b : Value) : Eval Value :=
  combine .multiply (fun i j => ofExact (i * j)) (· * ·) a b

/-- Quotient of numbers; of whole numbers, rounded toward zero. -/
def divide (a b : Value) : Eval Value :=
  combine .divide
    (fun i j => if j = 0 then .error ⟨.divisionByZero, none⟩ else ofExact (i.tdiv j)) (· / ·) a b

/-- What `divide` leaves over, with the sign of the dividend. It fails wherever the quotient of
whole numbers does. -/
def remainder (a b : Value) : Eval Value :=
  combine .remainder
    (fun i j =>
      if j = 0 then .error ⟨.divisionByZero, none⟩
      else match int64? (i.tdiv j) with
        | some _ => ofExact (i.tmod j)
        | none => .error (.ofMisuse .overflow))
    Decimal.floatRemainder a b

/-- Equality as `==` has it: a whole number equals a double of the same magnitude, and anything else
equals what is built alike. -/
def equal : Value → Value → Bool
  | int i, float y => floatOfInt i == y
  | float x, int j => floatOfInt j == x
  | a, b => a.same b

/-- The order of two doubles, if both are numbers. -/
def orderFloats (x y : Float) : Option Ordering :=
  if x < y then some .lt
  else if x == y then some .eq
  else if y < x then some .gt
  else none

/-- The order of two numbers or of two texts. Texts compare character by character. -/
def order (a b : Value) : Eval Ordering :=
  let ordering? : Eval (Option Ordering) :=
    match a, b with
    | int i, int j => .ok (some (compare i.toInt j.toInt))
    | int i, float y => .ok (orderFloats (floatOfInt i) y)
    | float x, int j => .ok (orderFloats x (floatOfInt j))
    | float x, float y => .ok (orderFloats x y)
    | str s, str t => .ok (some (compare s t))
    | a, b => .error (unjoined .compare a b)
  match ordering? with
  | .ok (some ordering) => .ok ordering
  | .ok none => .error (.ofMisuse .unordered)
  | .error e => .error e

end Stencil.Value
