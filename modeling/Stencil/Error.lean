import Stencil.Expr.Error
import Stencil.Token

/-! What makes a rendering fail. -/
namespace Stencil

/-- What is wrong with a token. -/
inductive TokenFault where
  /-- Text behind a directive that stands alone. -/
  | unexpectedText (kind : Token.Kind) (text : String)
  /-- An `if` or a `while` of nothing. -/
  | noCondition (kind : Token.Kind)
  /-- An exclamation mark in front of an expression. -/
  | negatedExpression (kind : Token.Kind)
  | invalidName (name : String)
  /-- An `each` without a colon. -/
  | noSequence
  /-- An `each` over something else than an expression. -/
  | plainSequence (text : String)
  /-- A directive whose block is not open. -/
  | unmatched (kind opener : Token.Kind)
  /-- A loop that has nowhere to go back to. -/
  | noResume
  deriving DecidableEq, Repr

def TokenFault.message : TokenFault → String
  | unexpectedText kind text => s!"unexpected text after '{kind.keyword}': '{text}'"
  | noCondition kind => s!"'{kind.keyword}' needs a condition"
  | negatedExpression kind => s!"'{kind.keyword}' cannot negate an expression with '!'"
  | invalidName name => s!"invalid token name '{name}'"
  | noSequence => "'each' expects 'name : expression'"
  | plainSequence text => s!"'each' requires an expression, got '{text}'"
  | unmatched kind opener => s!"'{kind.keyword}' without matching '{opener.keyword}'"
  | noResume => "loop has no resume position"

/-- Settings that nothing can be rendered with, or that cannot be read. -/
inductive SettingsFault where
  | emptyDelimiter
  | quotedDelimiter
  /-- Windows of no characters. -/
  | noWindow
  | unknownDelimiters (text : String)
  /-- Options that are no JSON, or JSON of another shape. -/
  | badJson
  /-- Options that are no TOML, or TOML of another shape. -/
  | badToml
  | unknownFormat (path : String)
  /-- A file of variables that is no JSON object. -/
  | badVariables (path : String)
  /-- An assignment without an equals sign. -/
  | noAssignment (text : String)
  deriving DecidableEq, Repr

def SettingsFault.message : SettingsFault → String
  | emptyDelimiter => "delimiters cannot be empty"
  | quotedDelimiter => "delimiters cannot contain '\"'"
  | noWindow => "buffer_size must be at least 1"
  | unknownDelimiters text => s!"unknown delimiter style '{text}'"
  | badJson => "invalid JSON options"
  | badToml => "invalid TOML options"
  | unknownFormat path => s!"unsupported options file '{path}' (expected .json or .toml)"
  | badVariables path => s!"invalid --vars file '{path}'"
  | noAssignment text => s!"--set expects NAME=VALUE, got '{text}'"

/-- Why a rendering fails. -/
inductive RenderError where
  /-- A token is malformed or out of place. -/
  | token (id : Nat) (fault : TokenFault)
  /-- The text ends inside a token that begins at `offset`. Inside a value that is being rendered,
  `within` is the token that it is the value of, and the offset counts from the start of the
  value. -/
  | unterminatedToken (offset : Nat) (within : Option Nat)
  | unterminatedBlock (kind : Token.Kind) (id : Nat)
  /-- An expression fails whose value cannot be done without. -/
  | expression (id : Nat) (error : EvalError)
  | recursionLimit (limit id : Nat)
  /-- A position outside the part of the text that is retained. -/
  | position (offset start stop : Nat)
  | settings (fault : SettingsFault)
  /-- A source cannot be read or a sink cannot be written. -/
  | io (message : String)
  deriving DecidableEq, Repr

namespace RenderError

def message : RenderError → String
  | token id fault => s!"Syntax error in token {id}: {fault.message}"
  | unterminatedToken offset none => s!"Unterminated token starting at offset {offset}"
  | unterminatedToken offset (some id) =>
    s!"Unterminated token starting at offset {offset} in the value of token {id}"
  | unterminatedBlock kind id => s!"Missing end for '{kind.keyword}' opened by token {id}"
  | expression id error => s!"Expression error in token {id}: {error.message}"
  | recursionLimit limit id =>
    s!"Recursion depth exceeded maximum ({limit}) while expanding token {id}"
  | position offset start stop =>
    s!"Internal error: position {offset} outside retained buffers {start}..{stop}"
  | settings fault => s!"Invalid configuration: {fault.message}"
  | io message => s!"IO error: {message}"

/-- Whether the template is to blame. -/
def isTemplateFault : RenderError → Bool
  | token _ _ => true
  | unterminatedToken _ _ => true
  | unterminatedBlock _ _ => true
  | expression _ _ => true
  | recursionLimit _ _ => true
  | _ => false

end RenderError

end Stencil
