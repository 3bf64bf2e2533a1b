import Stencil.Decimal.Reader
import Stencil.Json

/-! Reading the number at the front of a JSON text.

A number without point and exponent is exact while 64 bits hold it. Any other is a double, made from
the leading digits that 64 bits hold by one multiplication or division with a power of ten, which is
not always the nearest double. -/
namespace Stencil.Json.Number

abbrev Read (α : Type) := Except Fault (α × List Char)

/-- The largest significand that is kept exactly. -/
def maxSignificand : Nat := 0xFFFFFFFFFFFFFFFF

/-- Digits appended to a significand as long as 64 bits hold it, and how many were left out. -/
def appendDigits (significand : Nat) : List Char → Nat × Nat
  | [] => (significand, 0)
  | d :: digits =>
    let longer := 10 * significand + (d.toNat - '0'.toNat)
    if longer ≤ maxSignificand then appendDigits longer digits
    else (significand, digits.length + 1)

/-- `significand * 10 ^ exponent` by one operation, after division by `10 ^ 308` as often as the
exponent needs. None, if it is out of range. -/
def scale? (significand : Float) (exponent : Int) : Option Float :=
  if exponent < -308 then
    if significand == 0 then some significand
    else scale? (significand / Decimal.toFloat 1 308) (exponent + 308)
  else if exponent < 0 then some (significand / Decimal.toFloat 1 (-exponent))
  else if exponent ≤ 308 then
    let x := significand * Decimal.toFloat 1 exponent
    if x.isInf then none else some x
  else if significand == 0 then some significand
  else none
termination_by (-exponent).toNat

/-- The number of these parts. A tolerant reader takes one out of range for unreadable. -/
def ofParts (tolerant negative : Bool) (significand : Nat) (exponent : Int) : Except Fault Json :=
  match scale? (Float.ofNat significand) exponent with
  | some x => .ok (.number (.float (if negative then -x else x)))
  | none => if tolerant then .ok .unreadable else .error .malformed

/-- Exponents from here on are not added up. -/
def exponentLimit : Nat := 0x80000000

/-- The exponent after its mark, and the number it completes. -/
def exponentPart (tolerant negative : Bool) (significand : Nat) (exponent : Int)
    (text : List Char) : Read Json :=
  let (down, text) := Decimal.readSign text
  match text with
  | [] => .error .ended
  | d :: _ =>
    if d.isDigit then
      let digits := text.takeWhile Char.isDigit
      let rest := text.dropWhile Char.isDigit
      let shift := Decimal.digitsValue digits
      if shift < exponentLimit then
        (ofParts tolerant negative significand
          (if down then exponent - shift else exponent + shift)).map (·, rest)
      else if significand = 0 || down then
        .ok (.number (.float (if negative then -0.0 else 0.0)), rest)
      else if tolerant then .ok (.unreadable, rest)
      else .error .malformed
    else .error .malformed

def isExponentMark (c : Char) : Bool :=
  c = 'e' || c = 'E'

/-- The rest of a number with its point behind it. -/
def fractionPart (tolerant negative : Bool) (significand : Nat) (exponent : Int)
    (text : List Char) : Read Json :=
  let digits := text.takeWhile Char.isDigit
  let rest := text.dropWhile Char.isDigit
  if digits.isEmpty then .error (if rest.isEmpty then .ended else .malformed)
  else
    let (significand, dropped) := appendDigits significand digits
    let exponent := exponent - (digits.length - dropped : Nat)
    match rest with
    | mark :: more =>
      if isExponentMark mark then exponentPart tolerant negative significand exponent more
      else (ofParts tolerant negative significand exponent).map (·, rest)
    | [] => (ofParts tolerant negative significand exponent).map (·, rest)

/-- A whole number: exact, or a double if only that holds it. Minus zero is a double. -/
def ofWhole (negative : Bool) (n : Nat) : Json :=
  if !negative then .number (.int n)
  else if 1 ≤ n ∧ n ≤ 0x8000000000000000 then .number (.int (-(n : Int)))
  else .number (.float (-(Float.ofNat n)))

/-- The rest of a number with its whole part read, of which `dropped` digits were left out. -/
def afterWhole (tolerant negative : Bool) (significand dropped : Nat) (text : List Char) :
    Read Json :=
  let plain : Read Json :=
    if dropped = 0 then .ok (ofWhole negative significand, text)
    else (ofParts tolerant negative significand dropped).map (·, text)
  match text with
  | [] => plain
  | c :: rest =>
    if c = '.' then fractionPart tolerant negative significand dropped rest
    else if isExponentMark c then exponentPart tolerant negative significand dropped rest
    else plain

/-- A number after its minus sign, if it has one. -/
def read (tolerant negative : Bool) (text : List Char) : Read Json :=
  match text with
  | [] => .error .ended
  | '0' :: rest =>
    if rest.head?.any Char.isDigit then .error .malformed
    else afterWhole tolerant negative 0 0 rest
  | d :: _ =>
    if d.isDigit then
      let (significand, dropped) := appendDigits 0 (text.takeWhile Char.isDigit)
      afterWhole tolerant negative significand dropped (text.dropWhile Char.isDigit)
    else .error .malformed

end Stencil.Json.Number
