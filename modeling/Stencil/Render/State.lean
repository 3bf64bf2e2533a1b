import Stencil.Expr.Evaluator
import Stencil.Frame
import Stencil.Options
import Stencil.Token.Classify

/-! What a rendering depends on, and what it carries along. -/
namespace Stencil

/-- What is done about a token. -/
inductive Action where
  /-- The value is written, and the tokens in it are rendered. -/
  | replace
  /-- A marker with the value as its message is written. -/
  | mark
  | ignore
  /-- The innermost loop starts over. -/
  | again
  deriving DecidableEq, Repr, Inhabited

/-- What became of a token. -/
structure Resolution where
  action : Action
  value : Option String := none
  deriving DecidableEq, Repr, Inhabited

def Resolution.ignore : Resolution := ⟨.ignore, none⟩

def Resolution.again : Resolution := ⟨.again, none⟩

/-- Called on every value that is about to be written, with the memory that the last call left: it
may resolve the token otherwise. -/
abbrev Callback (κ : Type) := κ → Token → Resolution → Resolution × κ

/-- What a rendering depends on. -/
structure Host (κ : Type) where
  options : Options := {}
  /-- What gives expressions their values. -/
  evaluator : Evaluator := .standard
  environment : List (String × String) := []
  /-- Called on every value that is about to be written. -/
  callback : Option (Callback κ) := none

/-- What a rendering carries from token to token, through every level of nested values. -/
structure RenderState (κ : Type) where
  frames : Frames := []
  /-- The offset behind the last token of the template itself. -/
  position : Nat := 0
  /-- How many tokens were met. -/
  tokens : Nat := 0
  vars : Variables
  memory : κ

namespace Host
variable {κ : Type} (host : Host κ)

def left : List Char := host.options.delimiters.left.toList

def right : List Char := host.options.delimiters.right.toList

def grammar (vars : Variables) : Token.Grammar :=
  ⟨host.left, host.right, vars.accepts⟩

end Host

end Stencil
