import Stencil.Text.LetterTable

/-! Letters, digits and the two derived classes that identifiers are made of. Letters and decimal
digits, which names are made of, are those of Unicode 16; the derived classes are those of Unicode
17. Alphabetic is defined as the letters and what a table adds to them, and alphanumeric as
alphabetic or numeric, so a letter is alphabetic and a decimal digit is alphanumeric by definition,
and a name is always an identifier, but not the other way round. -/
namespace Stencil.Text

/-- A letter of any script (general category L in Unicode 16). -/
def isLetter (c : Char) : Bool :=
  c.isAlpha || letterRanges.contains c.toNat

/-- A decimal digit of any script (general category Nd in Unicode 16). -/
def isDecimalDigit (c : Char) : Bool :=
  c.isDigit || decimalDigitRanges.contains c.toNat

/-- The derived property Alphabetic (in Unicode 17). -/
def isAlphabetic (c : Char) : Bool :=
  isLetter c || alphabeticRanges.contains c.toNat

/-- A decimal digit, a letter number or another number (general category N in Unicode 17). -/
def isNumeric (c : Char) : Bool :=
  isDecimalDigit c || numericRanges.contains c.toNat

def isAlphanumeric (c : Char) : Bool :=
  isAlphabetic c || isNumeric c

theorem isAlphabetic_of_isLetter {c : Char} (h : isLetter c = true) : isAlphabetic c = true := by
  simp [isAlphabetic, h]

theorem isAlphanumeric_of_isDecimalDigit {c : Char} (h : isDecimalDigit c = true) :
    isAlphanumeric c = true := by
  simp [isAlphanumeric, isNumeric, h]

end Stencil.Text
