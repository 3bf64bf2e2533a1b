import Stencil.Decimal.Reader
import Stencil.Text.Letter

/-! The names of variables: a letter, then letters, digits and underscores, and perhaps one index in
brackets at the end. -/
namespace Stencil.Name

/-- A character that a name can go on with. -/
def isPart (c : Char) : Bool :=
  Text.isLetter c || Text.isDecimalDigit c || c = '_'

/-- `[digits]`, and nothing after it. -/
def isIndex : List Char → Bool
  | '[' :: rest =>
    let digits := rest.takeWhile Char.isDigit
    !digits.isEmpty && rest.dropWhile Char.isDigit == [']']
  | _ => false

/-- Whether a text is a name, with or without an index. -/
def isValid (name : String) : Bool :=
  match name.toList with
  | [] => false
  | c :: rest =>
    Text.isLetter c && match rest.dropWhile isPart with
      | [] => true
      | tail => isIndex tail

/-- A text that ends in `[digits]`, as the text in front of the bracket and the digits. The text in
front is not empty and is on one line. -/
def splitIndex? (name : String) : Option (String × String) :=
  match name.toList.reverse with
  | ']' :: rest =>
    let digits := rest.takeWhile Char.isDigit
    match rest.dropWhile Char.isDigit with
    | '[' :: base =>
      if digits.isEmpty || base.isEmpty || base.contains '\n' then none
      else some (String.ofList base.reverse, String.ofList digits.reverse)
    | _ => none
  | _ => none

end Stencil.Name
