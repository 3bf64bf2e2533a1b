import Stencil.Decimal.Binary64

/-! The shortest decimal that reads back as a given double.

A positive double owns an interval of reals, those that round to it. For one digit, two digits and
so on the two neighbours of the value on that decimal grid are tried; the first grid with a
neighbour in the interval wins, and of two the nearer one. All of it is exact arithmetic on whole
numbers, so the only choice left to the caller is which way an exact tie goes. -/
namespace Stencil.Decimal

/-- Which of two equally near neighbours is taken. -/
inductive Tie where
  /-- The one with an even last digit. -/
  | toEven
  /-- The larger one. -/
  | up
  deriving DecidableEq, Repr

/-- The positive decimal `digits * 10 ^ exponent`. -/
structure Scientific where
  /-- The significant digits, as a whole number. -/
  digits : Nat
  /-- The power of ten of the last digit. -/
  exponent : Int
  deriving DecidableEq, Repr

/-- The reals that round to a double, as fractions over one denominator. -/
structure Interval where
  /-- Numerator of the lower end. -/
  low : Nat
  /-- Numerator of the double itself. -/
  value : Nat
  /-- Numerator of the upper end. -/
  high : Nat
  denominator : Nat
  /-- Whether the ends belong to the interval. -/
  closed : Bool

namespace Interval

/-- The interval of `mantissa * 2 ^ exponent`. It reaches half a unit up and down, but only a
quarter down from a power of two, where the doubles below lie twice as close. -/
def ofBinary (mantissa : Nat) (exponent : Int) : Interval :=
  let down := if mantissa = Binary64.hiddenBit ∧ Binary64.minExponent < exponent then 1 else 2
  let scale := 1 <<< (exponent - 2).toNat
  { low := (4 * mantissa - down) * scale
    value := 4 * mantissa * scale
    high := (4 * mantissa + 2) * scale
    denominator := 1 <<< (2 - exponent).toNat
    closed := mantissa % 2 == 0 }

/-- Whether `digits / unit` lies in the interval, both over the interval's denominator. -/
def holds (i : Interval) (scaled : Nat) (factor : Nat) : Bool :=
  if i.closed then i.low * factor ≤ scaled && scaled ≤ i.high * factor
  else i.low * factor < scaled && scaled < i.high * factor

/-- The neighbour of the value on the grid of multiples of `10 ^ exponent` that lies in the
interval; of two such, the nearer. -/
def neighbour? (i : Interval) (tie : Tie) (exponent : Int) : Option Nat :=
  -- `digits * 10 ^ exponent` against `value / denominator`, cleared of fractions
  let factor := Nat.pow 10 (-exponent).toNat
  let unit := i.denominator * Nat.pow 10 exponent.toNat
  let below := i.value * factor / unit
  let above := below + 1
  let rest := i.value * factor % unit
  match i.holds (below * unit) factor, i.holds (above * unit) factor with
  | true, true =>
    if 2 * rest < unit then some below
    else if 2 * rest > unit then some above
    else match tie with
      | .up => some above
      | .toEven => some (if below % 2 = 0 then below else above)
  | true, false => some below
  | false, true => some above
  | false, false => none

/-- The first grid with a neighbour in the interval, from the grid of `10 ^ exponent` to finer
ones; the last of them is taken unasked. -/
def firstNeighbour (i : Interval) (tie : Tie) : Nat → Int → Scientific
  | 0, exponent => ⟨(i.neighbour? tie exponent).getD 0, exponent⟩
  | finer + 1, exponent =>
    match i.neighbour? tie exponent with
    | some digits => ⟨digits, exponent⟩
    | none => i.firstNeighbour tie finer (exponent - 1)

/-- The power of ten of the leading digit of the value. -/
def leadingExponent (i : Interval) : Int :=
  if i.denominator ≤ i.value then
    ((Nat.toDigits 10 (i.value / i.denominator)).length : Int) - 1
  else
    -- the least power of ten that lifts the value to one or more reaches its reciprocal
    let reciprocal := (i.denominator + i.value - 1) / i.value
    Int.negOfNat (Nat.toDigits 10 (reciprocal - 1)).length

end Interval

namespace Scientific

/-- The same decimal with trailing zeros moved from the digits to the exponent, at most `fuel` of
them. -/
def dropZeros : Nat → Scientific → Scientific
  | 0, d => d
  | fuel + 1, d =>
    if d.digits ≠ 0 ∧ d.digits % 10 = 0 then dropZeros fuel ⟨d.digits / 10, d.exponent + 1⟩ else d

/-- The shortest decimal that rounds to `mantissa * 2 ^ exponent`, for a positive double. Seventeen
digits always suffice. -/
def shortest (tie : Tie) (mantissa : Nat) (exponent : Int) : Scientific :=
  let i := Interval.ofBinary mantissa exponent
  dropZeros 17 (i.firstNeighbour tie 16 i.leadingExponent)

end Scientific

end Stencil.Decimal
