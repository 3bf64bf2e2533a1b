import Stencil.Delimiter.Style

/-! The options of a rendering. -/
namespace Stencil

/-- What becomes of a value that is missing. -/
inductive MissingPolicy where
  /-- A marker with the reason is written in its place. -/
  | mark
  | ignore
  deriving DecidableEq, Repr, Inhabited

structure Options where
  delimiters : DelimiterStyle := .doubleBrace
  /-- What becomes of missing values. -/
  missing : MissingPolicy := .mark
  /-- Whether names that are not set are looked up in the process environment. -/
  environmentFallback : Bool := false
  maxDepth : Nat := 20
  windowSize : Nat := 4096
  deriving DecidableEq, Repr, Inhabited

namespace Options

/-- The options under which missing values are not written. -/
def permissive : Options :=
  { missing := .ignore }

/-- Refuse options that nothing can be rendered with. -/
def validate (options : Options) : Except SettingsFault Unit := do
  options.delimiters.validate
  if options.windowSize = 0 then .error .noWindow else .ok ()

end Options

end Stencil
