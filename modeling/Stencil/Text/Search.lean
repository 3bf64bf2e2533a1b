/-! Searching a text for a piece of text. Occurrences are found from the left and do not overlap. -/
namespace Stencil.Text

/-- Offset of the leftmost occurrence of `piece`. -/
def find? (piece : List Char) : List Char → Option Nat
  | [] => if piece.isEmpty then some 0 else none
  | c :: rest =>
    if piece.isPrefixOf (c :: rest) then some 0 else (find? piece rest).map (· + 1)

def contains (piece text : List Char) : Bool :=
  (find? piece text).isSome

/-- The pieces between the occurrences of `separator`, after `skip` more characters of the
occurrence just met. -/
def splitSkipping (separator : List Char) : Nat → List Char → List (List Char)
  | _, [] => [[]]
  | skip + 1, _ :: rest => splitSkipping separator skip rest
  | 0, c :: rest =>
    if separator.isPrefixOf (c :: rest) then
      [] :: splitSkipping separator (separator.length - 1) rest
    else
      match splitSkipping separator 0 rest with
      | [] => [[c]]
      | piece :: pieces => (c :: piece) :: pieces

/-- The pieces between the occurrences of a non-empty `separator`. -/
def split (separator text : List Char) : List (List Char) :=
  splitSkipping separator 0 text

/-- The text with each occurrence of `piece` replaced, after `skip` more characters of the
occurrence just met. -/
def replaceSkipping (piece replacement : List Char) : Nat → List Char → List Char
  | _, [] => []
  | skip + 1, _ :: rest => replaceSkipping piece replacement skip rest
  | 0, c :: rest =>
    if piece.isPrefixOf (c :: rest) then
      replacement ++ replaceSkipping piece replacement (piece.length - 1) rest
    else
      c :: replaceSkipping piece replacement 0 rest

/-- The text with each occurrence of a non-empty `piece` replaced. -/
def replace (piece replacement text : List Char) : List Char :=
  replaceSkipping piece replacement 0 text

def join (separator : List Char) : List (List Char) → List Char
  | [] => []
  | [piece] => piece
  | piece :: pieces => piece ++ separator ++ join separator pieces

end Stencil.Text
