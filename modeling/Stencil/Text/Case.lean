import Stencil.Text.CaseTable

/-! Upper and lower case of whole texts. Both are taken character by character, except that a
capital sigma at the end of a word becomes the final form of the letter. -/
namespace Stencil.Text

/-- Where a list of shifts sends a code point: itself, if no shift moves it. -/
def shiftCase (shifts : List CaseShift) (code : Nat) : Nat :=
  match shifts.find? fun s =>
      s.first ≤ code && code ≤ s.last && (code - s.first) % s.step == 0 with
  | some s => ((code : Int) + s.shift).toNat
  | none => code

/-- Lowercase of one character, outside any context. -/
def lowerChar (c : Char) : List Char :=
  if c.toNat < 128 then [c.toLower]
  else if c = 'İ' then ['i', '\u0307']
  else [Char.ofNat (shiftCase lowercaseShifts c.toNat)]

def upperChar (c : Char) : List Char :=
  if c.toNat < 128 then [c.toUpper]
  else match uppercaseExpansions.lookup c.toNat with
    | some codes => codes.map Char.ofNat
    | none => [Char.ofNat (shiftCase uppercaseShifts c.toNat)]

/-- An upper, lower or title case character. -/
def isCased (c : Char) : Bool :=
  c.isAlpha || casedRanges.contains c.toNat

/-- A character that does not separate a letter from the letters around it, such as an apostrophe
or an accent. -/
def isCaseIgnorable (c : Char) : Bool :=
  c ∈ ['\'', '.', ':', '^', '\x60'] || caseIgnorableRanges.contains c.toNat

/-- Whether a cased character comes next, looking through the ignorable ones. -/
def meetsCased (text : List Char) : Bool :=
  match text.dropWhile isCaseIgnorable with
  | c :: _ => isCased c
  | [] => false

/-- Lowercase of the rest of a text whose reversed beginning is `before`. A capital sigma is final
when a cased character precedes it and none follows. -/
def lowerAfter (before : List Char) : List Char → List Char
  | [] => []
  | c :: rest =>
    let mapped :=
      if c = 'Σ' then [if meetsCased before && !meetsCased rest then 'ς' else 'σ']
      else lowerChar c
    mapped ++ lowerAfter (c :: before) rest

def lower (text : List Char) : List Char :=
  lowerAfter [] text

def upper (text : List Char) : List Char :=
  text.flatMap upperChar

end Stencil.Text
