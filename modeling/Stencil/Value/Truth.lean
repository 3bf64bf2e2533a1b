import Stencil.Text.Case
import Stencil.Value

/-! Which values count as true. -/
namespace Stencil.Value

/-- The words for false, in lower case. -/
def falseWords : List String :=
  ["false", "no", "off", "0"]

/-- Whether a value counts as true: a truth value says so itself, no value does not, and any other
value does unless its display is empty or a word for false in any letter case. -/
def isTruthy : Value → Bool
  | null => false
  | bool b => b
  | v =>
    let text := v.display
    !text.isEmpty && !falseWords.contains (String.ofList (Text.lower text.toList))

end Stencil.Value
