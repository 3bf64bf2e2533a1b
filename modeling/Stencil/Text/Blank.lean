import Stencil.Text.CodeRanges

/-! Blank characters and what is done with them: trimming a text at both ends and cutting off its
first word. -/
namespace Stencil.Text

/-- Blanks outside ASCII. -/
def blankRanges : CodeRanges := [
  (0x0085, 0x0085), (0x00A0, 0x00A0), (0x1680, 0x1680), (0x2000, 0x200A), (0x2028, 0x2029),
  (0x202F, 0x202F), (0x205F, 0x205F), (0x3000, 0x3000)]

/-- A character with the property White_Space. -/
def isBlank (c : Char) : Bool :=
  c = ' ' || ('\t' ≤ c && c ≤ '\r') || blankRanges.contains c.toNat

def trimStart (text : List Char) : List Char :=
  text.dropWhile isBlank

def trimEnd (text : List Char) : List Char :=
  (text.reverse.dropWhile isBlank).reverse

/-- The text without the blanks at its ends. -/
def trim (text : List Char) : List Char :=
  trimEnd (trimStart text)

/-- The characters before the first blank, and the text from that blank on. -/
def firstWord (text : List Char) : List Char × List Char :=
  text.span fun c => !isBlank c

end Stencil.Text
