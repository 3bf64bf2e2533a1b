import Stencil.Options.Document
import Stencil.Toml.Reader

/-! Options in TOML. -/
namespace Stencil.Options

/-- In TOML nothing is an empty table, and a pair of delimiters has no other members. -/
def inToml : Convention where
  isNothing
    | .object [] => true
    | _ => false
  positional := false
  longer := true
  lenient := false

/-- The options in a TOML text. They must be such that something can be rendered with them. -/
def readToml (text : String) : Except SettingsFault Options :=
  match (Toml.read text).bind inToml.options with
  | none => .error .badToml
  | some options => options.validate.map fun _ => options

end Stencil.Options
