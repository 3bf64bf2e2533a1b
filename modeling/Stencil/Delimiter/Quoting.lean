/-! Quoted stretches of a token: between double quotes, in which a backslash takes the next character
out of play. -/
namespace Stencil

/-- Where a reader of a token stands. -/
inductive Quoting where
  | outside
  | inside
  /-- Inside quotes, behind a backslash. -/
  | escaped
  deriving DecidableEq, Repr, Inhabited

namespace Quoting

/-- The character that opens and closes a quoted stretch. -/
def mark : Char := '"'

/-- The character that takes the next one out of play. -/
def escape : Char := '\\'

/-- Where the reader stands after a character. -/
def next : Quoting → Char → Quoting
  | outside, c => if c = mark then inside else outside
  | inside, c => if c = escape then escaped else if c = mark then outside else inside
  | escaped, _ => inside

/-- Offset of the first place outside quotes where `piece` stands, from a reader that stands
somewhere. A piece that begins with a quote stands nowhere. -/
def findFrom (piece : List Char) : Quoting → List Char → Option Nat
  | _, [] => none
  | q, c :: rest =>
    if q = outside ∧ c ≠ mark ∧ piece.isPrefixOf (c :: rest) then some 0
    else (findFrom piece (q.next c) rest).map (· + 1)

/-- Offset of the first place outside quotes where `piece` stands. -/
def find? (piece text : List Char) : Option Nat :=
  findFrom piece outside text

/-- Whether `piece` stands somewhere outside quotes. -/
def occurs (piece text : List Char) : Bool :=
  (find? piece text).isSome

/-- The text without one layer of quotes around it. -/
def strip (text : List Char) : List Char :=
  match text with
  | '"' :: rest => if rest.getLast? = some mark then rest.dropLast else text
  | _ => text

end Quoting

end Stencil
