import Stencil.Json.Reader

/-! Quoted texts in TOML: between quotes, with escapes, or between apostrophes, as they stand; in one
line, or between three marks, in several. -/
namespace Stencil.Toml

/-- A reader from the front of a text: what was read, and the text left over. -/
abbrev Reader (α : Type) := List Char → Option (α × List Char)

/-- A blank within a line. -/
def isBlank (c : Char) : Bool :=
  c = ' ' || c = '\t'

/-- A character that may stand in a line. -/
def isPrintable (c : Char) : Bool :=
  c = '\t' || (0x20 ≤ c.toNat && c.toNat != 0x7F)

/-- The character with a certain number, in hexadecimal digits. -/
def scalar? (digits : List Char) : Option Char := do
  let number ← digits.foldlM (fun n d => (Json.hexValue? d).map (16 * n + ·)) 0
  if h : number.isValidChar then some (Char.ofNatAux number h) else none

/-- The character that a backslash and one more character write. -/
def escapedChar? : Char → Option Char
  | '/' => none
  | c => Json.escapedChar? c

def consChar (c : Option Char) (read : Option (List Char × List Char)) :
    Option (List Char × List Char) :=
  match c, read with
  | some c, some (text, rest) => some (c :: text, rest)
  | _, _ => none

namespace Quoted

/-- A text after its opening quote. -/
def basic : Reader (List Char)
  | '"' :: rest => some ([], rest)
  | '\\' :: 'u' :: a :: b :: c :: d :: rest =>
    consChar (scalar? [a, b, c, d]) (basic rest)
  | '\\' :: 'U' :: a :: b :: c :: d :: e :: f :: g :: h :: rest =>
    consChar (scalar? [a, b, c, d, e, f, g, h]) (basic rest)
  | '\\' :: e :: rest => consChar (escapedChar? e) (basic rest)
  | c :: rest => if isPrintable c && c != '\\' then consChar (some c) (basic rest) else none
  | [] => none

/-- A text after its opening apostrophe. -/
def literal : Reader (List Char)
  | '\'' :: rest => some ([], rest)
  | c :: rest => if isPrintable c then consChar (some c) (literal rest) else none
  | [] => none

/-- Up to two marks in front of a closing triple belong to the text. -/
def closing (mark : Char) : List Char → List Char × List Char
  | a :: b :: rest =>
    if a = mark then if b = mark then ([a, b], rest) else ([a], b :: rest) else ([], a :: b :: rest)
  | [a] => if a = mark then ([a], []) else ([], [a])
  | [] => ([], [])

/-- Whether a line ends behind blanks. -/
def endsLine (text : List Char) : Bool :=
  match text.dropWhile isBlank with
  | '\n' :: _ => true
  | '\r' :: '\n' :: _ => true
  | _ => false

/-- A text of several lines after its opening quotes. Behind a backslash at the end of a line, as
`skipping` says, blanks and ends of lines count for nothing. -/
def basicLines : (skipping : Bool) → Reader (List Char)
  | _, '"' :: '"' :: '"' :: rest => some (closing '"' rest)
  | skipping, '\r' :: '\n' :: rest =>
    if skipping then basicLines true rest else consChar (some '\n') (basicLines false rest)
  | skipping, '\n' :: rest =>
    if skipping then basicLines true rest else consChar (some '\n') (basicLines false rest)
  | _, '\\' :: 'u' :: a :: b :: c :: d :: rest =>
    consChar (scalar? [a, b, c, d]) (basicLines false rest)
  | _, '\\' :: 'U' :: a :: b :: c :: d :: e :: f :: g :: h :: rest =>
    consChar (scalar? [a, b, c, d, e, f, g, h]) (basicLines false rest)
  | _, '\\' :: e :: rest =>
    if isBlank e || e = '\n' || e = '\r' then
      if endsLine (e :: rest) then
        if e = '\r' then basicLines true (rest.drop 1) else basicLines true rest
      else none
    else consChar (escapedChar? e) (basicLines false rest)
  | skipping, c :: rest =>
    if isPrintable c && c != '\\' then
      if skipping && isBlank c then basicLines true rest else consChar (some c) (basicLines false rest)
    else none
  | _, [] => none
termination_by _ text => text.length

def literalLines : Reader (List Char)
  | '\'' :: '\'' :: '\'' :: rest => some (closing '\'' rest)
  | '\r' :: '\n' :: rest => consChar (some '\n') (literalLines rest)
  | '\n' :: rest => consChar (some '\n') (literalLines rest)
  | c :: rest => if isPrintable c then consChar (some c) (literalLines rest) else none
  | [] => none

/-- The text without the end of a line in front of it. -/
def dropLineEnd : List Char → List Char
  | '\n' :: rest => rest
  | '\r' :: '\n' :: rest => rest
  | text => text

/-- A quoted text. -/
def read : Reader (List Char)
  | '"' :: '"' :: '"' :: rest => basicLines false (dropLineEnd rest)
  | '\'' :: '\'' :: '\'' :: rest => literalLines (dropLineEnd rest)
  | '"' :: rest => basic rest
  | '\'' :: rest => literal rest
  | _ => none

end Quoted

end Stencil.Toml
