import Stencil.Json
import Stencil.Options

/-! Options as a document of settings.

The document is an object of settings, any of which may be absent; settings of other names do not
matter. A choice is written as its name or as an object with that name as its only member. How a
format differs from another in such details is said by a `Convention`. -/
namespace Stencil.Options

/-- The details in which formats differ. -/
structure Convention where
  /-- What stands behind the name of a choice that needs nothing more. -/
  isNothing : Json → Bool
  /-- Whether a list may stand for an object, its items for the members in order. -/
  positional : Bool
  /-- Whether such a list may have more items than there are members. -/
  longer : Bool
  /-- Whether the object of a choice may have members that do not belong there. -/
  lenient : Bool

/-- A setting as it stands in a document, if it is there. -/
abbrev Setting (α : Type) := Json → Option α

def flag : Setting Bool
  | .bool b => some b
  | _ => none

/-- A number, which must be whole and fit 64 bits. -/
def count : Setting Nat
  | .number (.int n) => if 0 ≤ n ∧ n < 0x10000000000000000 then some n.toNat else none
  | _ => none

def word : Setting String
  | .text s => some s
  | _ => none

/-- The members of that name, as they should be: one at most. -/
def unique? (members : List (String × Json)) (name : String) : Option (Option Json) :=
  match members.filter (·.1 = name) with
  | [] => some none
  | [member] => some (some member.2)
  | _ => none

/-- The setting of that name, or its default if it is absent. -/
def setting {α : Type} (members : List (String × Json)) (name : String) (read : Setting α)
    (otherwise : α) : Option α :=
  match unique? members name with
  | none => none
  | some none => some otherwise
  | some (some json) => read json

/-- The member of that name, which must be there. -/
def required {α : Type} (members : List (String × Json)) (name : String) (read : Setting α) :
    Option α :=
  match unique? members name with
  | some (some json) => read json
  | _ => none

/-- The name of a choice, and what stands behind it, if anything does. -/
def choice : Setting (String × Option Json)
  | .text name => some (name, none)
  | .object [(name, json)] => some (name, some json)
  | _ => none

namespace Convention

/-- Whether nothing more stands behind the name of a choice. -/
def bare (c : Convention) : Option Json → Bool
  | none => true
  | some json => c.isNothing json

/-- A pair of delimiters of one's own. -/
def pair (c : Convention) : Setting DelimiterStyle
  | .object members =>
    if !c.lenient && members.any fun m => m.1 != "left" && m.1 != "right" then none
    else do
      let left ← required members "left" word
      let right ← required members "right" word
      return .custom left right
  | .array (left :: right :: more) =>
    if more.isEmpty || c.longer then do return .custom (← word left) (← word right) else none
  | _ => none

def delimiters (c : Convention) : Setting DelimiterStyle := fun json => do
  let (name, payload) ← choice json
  match name with
  | "double_brace" => if c.bare payload then some .doubleBrace else none
  | "dollar_brace" => if c.bare payload then some .dollarBrace else none
  | "angle_percent" => if c.bare payload then some .anglePercent else none
  | "double_bracket" => if c.bare payload then some .doubleBracket else none
  | "custom" => payload.bind c.pair
  | _ => none

def missing (c : Convention) : Setting MissingPolicy := fun json => do
  let (name, payload) ← choice json
  match name with
  | "error" => if c.bare payload then some .mark else none
  | "ignore" => if c.bare payload then some .ignore else none
  | _ => none

/-- The names of the settings, in the order in which a list gives them. -/
def names : List String :=
  ["delimiters", "missing_tokens", "environment_fallback", "max_recursion_depth", "buffer_size"]

/-- The options in an object of settings. -/
def ofMembers (c : Convention) (members : List (String × Json)) : Option Options := do
  let defaults : Options := {}
  return {
    delimiters := ← setting members "delimiters" c.delimiters defaults.delimiters
    missing := ← setting members "missing_tokens" c.missing defaults.missing
    environmentFallback :=
      ← setting members "environment_fallback" flag defaults.environmentFallback
    maxDepth := ← setting members "max_recursion_depth" count defaults.maxDepth
    windowSize := ← setting members "buffer_size" count defaults.windowSize }

def options (c : Convention) : Json → Option Options
  | .object members => c.ofMembers members
  | .array items =>
    if c.positional && (c.longer || items.length ≤ names.length) then
      c.ofMembers (names.zip items)
    else none
  | _ => none

end Convention

end Stencil.Options
