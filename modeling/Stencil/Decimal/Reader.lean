import Stencil.Integer

/-! Reading numbers from text. A reader takes the whole text or nothing; digits are ASCII. -/
namespace Stencil.Decimal

/-- The whole number that a row of digits writes. -/
def digitsValue (digits : List Char) : Nat :=
  digits.foldl (fun n c => 10 * n + (c.toNat - '0'.toNat)) 0

/-- The optional sign in front of a number; true is minus. -/
def readSign : List Char → Bool × List Char
  | '-' :: rest => (true, rest)
  | '+' :: rest => (false, rest)
  | text => (false, text)

/-- A whole number: an optional sign and one or more digits. -/
def readInt? (text : List Char) : Option Int :=
  let (negative, digits) := readSign text
  if digits.isEmpty || !digits.all Char.isDigit then none
  else if negative then some (-(digitsValue digits : Int))
  else some (digitsValue digits)

/-- A whole number that fits 64 bits. -/
def readInt64? (text : List Char) : Option Int64 :=
  (readInt? text).bind int64?

/-- The double nearest to `digits * 10 ^ exponent`. Values out of the range of doubles are settled
first, so that no power of ten grows beyond use. -/
def toFloat (digits : Nat) (exponent : Int) : Float :=
  if digits = 0 then 0
  else
    let places := (Nat.toDigits 10 digits).length + exponent
    if places < -330 then 0
    else if places > 310 then 1.0 / 0.0
    else if exponent < 0 then Float.ofScientific digits true (-exponent).toNat
    else Float.ofScientific digits false exponent.toNat

/-- An exponent mark and a whole number, or nothing at all. -/
def readExponent? : List Char → Option Int
  | [] => some 0
  | mark :: rest => if mark = 'e' || mark = 'E' then readInt? rest else none

/-- Digits with at most one point among them, then an optional exponent. -/
def readDecimal? (text : List Char) : Option Float :=
  let whole := text.takeWhile Char.isDigit
  let rest := text.dropWhile Char.isDigit
  let (fraction, rest) := match rest with
    | '.' :: rest => (rest.takeWhile Char.isDigit, rest.dropWhile Char.isDigit)
    | rest => ([], rest)
  if whole.isEmpty && fraction.isEmpty then none
  else (readExponent? rest).map fun exponent =>
    toFloat (digitsValue (whole ++ fraction)) (exponent - fraction.length)

/-- A double: an optional sign, then a decimal, `inf`, `infinity` or `nan` in any letter case. -/
def readFloat? (text : List Char) : Option Float :=
  let (negative, rest) := readSign text
  let magnitude? :=
    match String.ofList (rest.map Char.toLower) with
    | "inf" | "infinity" => some (1.0 / 0.0)
    | "nan" => some (0.0 / 0.0)
    | _ => readDecimal? rest
  magnitude?.map fun magnitude => if negative then -magnitude else magnitude

end Stencil.Decimal
