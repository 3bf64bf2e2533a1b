import Stencil.Json.Reader
import Stencil.Options.Document

/-! Options in JSON. -/
namespace Stencil.Options

/-- In JSON nothing is `null`, and a list may stand for an object. -/
def inJson : Convention where
  isNothing
    | .null => true
    | _ => false
  positional := true
  longer := false
  lenient := true

def ofJson? (json : Json) : Option Options :=
  inJson.options json

/-- The options in a JSON text. They must be such that something can be rendered with them. -/
def readJson (text : String) : Except SettingsFault Options :=
  match (Json.read true text).toOption.bind ofJson? with
  | none => .error .badJson
  | some options => options.validate.map fun _ => options

def delimitersToJson : DelimiterStyle → Json
  | .doubleBrace => .text "double_brace"
  | .dollarBrace => .text "dollar_brace"
  | .anglePercent => .text "angle_percent"
  | .doubleBracket => .text "double_bracket"
  | .custom left right =>
    .object [("custom", .object [("left", .text left), ("right", .text right)])]

def missingToJson : MissingPolicy → Json
  | .mark => .text "error"
  | .ignore => .text "ignore"

def toJson (options : Options) : Json :=
  .object [
    ("delimiters", delimitersToJson options.delimiters),
    ("missing_tokens", missingToJson options.missing),
    ("environment_fallback", .bool options.environmentFallback),
    ("max_recursion_depth", .number (.int options.maxDepth)),
    ("buffer_size", .number (.int options.windowSize))]

end Stencil.Options
