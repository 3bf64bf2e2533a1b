/-! A double as a signed whole number times a power of two, and the exact remainder of two doubles.

Decimal texts of a double are computed from this view in exact arithmetic, so nothing depends on
how a machine rounds. -/
namespace Stencil.Decimal

/-- What the 64 bits of a double stand for. -/
inductive Binary64 where
  | nan
  /-- Beyond every finite value. -/
  | infinite (negative : Bool)
  /-- `mantissa * 2 ^ exponent`, with its sign. -/
  | finite (negative : Bool) (mantissa : Nat) (exponent : Int)
  deriving DecidableEq, Repr, Inhabited

namespace Binary64

/-- The exponent of the smallest positive double. -/
def minExponent : Int := -1074

/-- The leading bit of the mantissa, which is not written. -/
def hiddenBit : Nat := 0x10000000000000

/-- Read the fields of a double. -/
def ofBits (bits : UInt64) : Binary64 :=
  let word := bits.toNat
  let negative := word / 0x8000000000000000 == 1
  let biased := word / hiddenBit % 0x800
  let fraction := word % hiddenBit
  if biased = 2047 then (if fraction = 0 then infinite negative else nan)
  else if biased = 0 then finite negative fraction minExponent
  else finite negative (hiddenBit + fraction) (minExponent + (biased - 1 : Nat))

def ofFloat (x : Float) : Binary64 :=
  ofBits x.toBits

end Binary64

/-- The remainder of truncated division, exact: it has the sign of the dividend, and it is not a
number where the division has no quotient. -/
def floatRemainder (x y : Float) : Float :=
  match Binary64.ofFloat x, Binary64.ofFloat y with
  | .finite negative m p, .finite _ n q =>
    if n = 0 then 0.0 / 0.0
    else
      -- On the finer of the two grids the remainder needs no more bits than an operand has.
      let grid := min p q
      let rest := (m <<< (p - grid).toNat) % (n <<< (q - grid).toNat)
      let magnitude := (Float.ofNat rest).scaleB grid
      if negative then -magnitude else magnitude
  | .finite _ _ _, .infinite _ => x
  | _, _ => 0.0 / 0.0

end Stencil.Decimal
