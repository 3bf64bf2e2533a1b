import Stencil.Decimal.Shortest

/-! How a double is written out: the shortest digits that read back, laid out with a point or with
an exponent. -/
namespace Stencil.Decimal

/-- The decisions of one written form of doubles. -/
structure Layout where
  /-- Which way an exact tie between two shortest decimals goes. -/
  tie : Tie
  /-- The least and the greatest place of the point, counted from the left of the first digit,
  that is written without an exponent; none if no value gets an exponent. -/
  pointRange : Option (Int × Int)
  /-- Whether a whole number ends in `.0`. -/
  pointZero : Bool
  /-- Whether zero keeps its sign. -/
  signedZero : Bool
  /-- Whether an exponent that is not negative has a plus sign. -/
  exponentPlus : Bool

namespace Layout

/-- A value shown to a reader of a rendered text: no exponent, no `.0`. -/
def plain : Layout := ⟨.up, none, false, false, false⟩

/-- A value shown to a programmer. -/
def inspected : Layout := ⟨.up, some (-3, 16), true, true, false⟩

/-- A number of a JSON text. -/
def json : Layout := ⟨.toEven, some (-4, 16), true, true, true⟩

/-- The digits of a decimal with its point `places` digits after the first one's left side. -/
def positionalText (digits : List Char) (places : Int) (pointZero : Bool) : List Char :=
  if places ≤ 0 then
    '0' :: '.' :: (List.replicate (-places).toNat '0' ++ digits)
  else if digits.length ≤ places.toNat then
    digits ++ List.replicate (places.toNat - digits.length) '0'
      ++ (if pointZero then ['.', '0'] else [])
  else
    digits.take places.toNat ++ '.' :: digits.drop places.toNat

/-- The digits of a decimal with one of them before the point, and an exponent, which has no leading
zeros. -/
def exponentText (digits : List Char) (places : Int) (plus : Bool) : List Char :=
  let mantissa := match digits with
    | [] => []
    | [d] => [d]
    | d :: more => d :: '.' :: more
  let exponent := places - 1
  mantissa ++ 'e' :: ((if plus && 0 ≤ exponent then ['+'] else []) ++ (toString exponent).toList)

def magnitude (layout : Layout) (mantissa : Nat) (exponent : Int) : List Char :=
  if mantissa = 0 then '0' :: (if layout.pointZero then ['.', '0'] else [])
  else
    let decimal := Scientific.shortest layout.tie mantissa exponent
    let digits := Nat.toDigits 10 decimal.digits
    let places := decimal.exponent + digits.length
    if layout.pointRange.all fun range => range.1 ≤ places && places ≤ range.2 then
      positionalText digits places layout.pointZero
    else
      exponentText digits places layout.exponentPlus

/-- The written form of a double. -/
def write (layout : Layout) (x : Float) : String :=
  match Binary64.ofFloat x with
  | .nan => "NaN"
  | .infinite negative => if negative then "-inf" else "inf"
  | .finite negative mantissa exponent =>
    let minus := negative && (mantissa != 0 || layout.signedZero)
    String.ofList ((if minus then ['-'] else []) ++ layout.magnitude mantissa exponent)

end Layout

end Stencil.Decimal
