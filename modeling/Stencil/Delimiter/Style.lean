import Stencil.Error

/-! The pairs of delimiters that a template can be written with. -/
namespace Stencil

inductive DelimiterStyle where
  /-- Two braces: `{{ name }}`. -/
  | doubleBrace
  /-- A dollar sign and braces: `${ name }`. -/
  | dollarBrace
  /-- Angle brackets and percent signs: `<% name %>`. -/
  | anglePercent
  /-- Two brackets: `[[ name ]]`. -/
  | doubleBracket
  | custom (left right : String)
  deriving DecidableEq, Repr, Inhabited

namespace DelimiterStyle

def left : DelimiterStyle → String
  | doubleBrace => "\x7b\x7b"
  | dollarBrace => "$\x7b"
  | anglePercent => "<%"
  | doubleBracket => "[["
  | custom left _ => left

def right : DelimiterStyle → String
  | doubleBrace => "\x7d\x7d"
  | dollarBrace => "\x7d"
  | anglePercent => "%>"
  | doubleBracket => "]]"
  | custom _ right => right

/-- A pair is no good if one of the delimiters is empty or holds a quote. -/
def validate (style : DelimiterStyle) : Except SettingsFault Unit :=
  if style.left.isEmpty || style.right.isEmpty then .error .emptyDelimiter
  else if style.left.toList.contains '"' || style.right.toList.contains '"' then
    .error .quotedDelimiter
  else .ok ()

/-- The pair that a word or an empty token stands for. -/
def preset? : String → Option DelimiterStyle
  | "double-brace" | "\x7b\x7b\x7d\x7d" => some doubleBrace
  | "dollar-brace" | "$\x7b\x7d" => some dollarBrace
  | "angle-percent" | "<%%>" => some anglePercent
  | "double-bracket" | "[[]]" => some doubleBracket
  | _ => none

/-- The pair written on both sides of the first comma. -/
def ofPair? (spec : String) : Option DelimiterStyle :=
  let left := spec.toList.takeWhile (· != ',')
  match spec.toList.dropWhile (· != ',') with
  | [] => none
  | _ :: right => some (custom (String.ofList left) (String.ofList right))

/-- The pair that a text asks for: a preset, or two delimiters with a comma between them. -/
def ofSpec (spec : String) : Except SettingsFault DelimiterStyle := do
  let some style := (preset? spec).or (ofPair? spec) | .error (.unknownDelimiters spec)
  style.validate
  return style

end DelimiterStyle

end Stencil
