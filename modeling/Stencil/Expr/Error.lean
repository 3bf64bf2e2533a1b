import Stencil.Value

/-! What can go wrong with an expression, and where. An error is a cause and, where one is known, the
span of the expression text it concerns; all wording is in `Cause.message`. -/
namespace Stencil

/-- A range of characters of an expression text: the offset of the first and of the one after the
last. -/
structure Span where
  /-- Offset of the first character. -/
  start : Nat
  /-- Offset after the last character. -/
  stop : Nat
  deriving DecidableEq, Repr, Inhabited

namespace EvalError

/-- What an operation on two values would have done. -/
inductive Joint where
  | add
  | subtract
  | multiply
  | divide
  | remainder
  | compare
  deriving DecidableEq, Repr

def Joint.verb : Joint → String
  | add => "add"
  | subtract => "subtract"
  | multiply => "multiply"
  | divide => "divide"
  | remainder => "take remainder of"
  | compare => "compare"

/-- An operation that its values do not support. -/
inductive Misuse where
  /-- The exact result does not fit 64 bits. -/
  | overflow
  | negate (kind : Value.Kind)
  /-- An operation on two kinds that do not go together. -/
  | join (operation : Joint) (left right : Value.Kind)
  /-- A comparison with a double that is not a number. -/
  | unordered
  /-- An index into a value without elements. -/
  | index (kind : Value.Kind)
  | property (kind : Value.Kind) (name : String)
  | method (kind : Value.Kind) (name : String)
  /-- The parameter of the expression used as a value. -/
  | parameter (name : String)
  deriving DecidableEq, Repr

def Misuse.message : Misuse → String
  | overflow => "integer overflow"
  | negate kind => s!"cannot apply unary '-' to {kind.name}"
  | join operation left right => s!"cannot {operation.verb} {left.name} and {right.name}"
  | unordered => "cannot compare NaN"
  | index kind => s!"cannot index into {kind.name}"
  | property kind name => s!"{kind.name} has no property '{name}'"
  | method kind name => s!"{kind.name} has no method '{name}'"
  | parameter name => s!"'{name}' is the environment and has no value of its own"

/-- An argument that a method cannot work with. -/
inductive BadArgument where
  /-- A text that should write a whole number. -/
  | notInteger (text : String)
  /-- A text that should write a number. -/
  | notNumber (text : String)
  /-- A value that should display as a truth value. -/
  | notBoolean (text : String)
  /-- Joining without a separator. -/
  | noSeparator
  /-- Splitting at the empty text. -/
  | emptySeparator
  /-- Replacing the empty text. -/
  | emptyPattern
  | count (method : String) (expected got : Nat)
  /-- An argument that is not there; the first has number 1. -/
  | missing (method : String) (number : Nat)
  deriving DecidableEq, Repr

def BadArgument.message : BadArgument → String
  | notInteger text => s!"'{text}' is not a valid integer"
  | notNumber text => s!"'{text}' is not a valid number"
  | notBoolean text => s!"'{text}' is not a valid boolean"
  | noSeparator => "Join expects a separator"
  | emptySeparator => "Split separator cannot be empty"
  | emptyPattern => "Replace pattern cannot be empty"
  | count method expected got => s!"{method} expects {expected} argument(s), got {got}"
  | missing method number => s!"{method} expects argument {number}"

/-- What the text of an expression should have gone on with. -/
inductive Wanted where
  | parameter
  | parameterClose
  | arrow
  | memberName
  | conditionalColon
  | indexClose
  | argumentsClose
  | groupClose
  deriving DecidableEq, Repr

/-- The words for what was wanted. -/
def Wanted.words : Wanted → String
  | parameter => "a parameter name before '=>'"
  | parameterClose => "')' after parameter"
  | arrow => "'=>'"
  | memberName => "member name after '.'"
  | conditionalColon => "':' in conditional expression"
  | indexClose => "']'"
  | argumentsClose => "')' after arguments"
  | groupClose => "')'"

/-- A text that is no expression. -/
inductive Malformed where
  | integerRange (digits : String)
  | unterminatedString
  | character (c : Char)
  /-- Something else stands where this was wanted. -/
  | expected (wanted : Wanted)
  /-- The text ends where an operand was wanted. -/
  | ended
  /-- A symbol, given by its name, where an operand was wanted. -/
  | symbol (name : String)
  /-- More text after a complete expression. -/
  | trailing
  deriving DecidableEq, Repr

def Malformed.message : Malformed → String
  | integerRange digits => s!"integer literal '{digits}' out of range"
  | unterminatedString => "unterminated string literal"
  | character c => s!"unexpected character '{c}'"
  | expected wanted => s!"expected {wanted.words}"
  | ended => "unexpected end of expression"
  | symbol name => s!"unexpected token {name}"
  | trailing => "unexpected trailing input"

/-- Why an expression has no value. -/
inductive Cause where
  /-- A value of another kind was needed. -/
  | typeMismatch (expected got : Value.Kind)
  | undefinedVariable (name : String)
  | undefinedMethod (name : String)
  | divisionByZero
  | misuse (misuse : Misuse)
  | argument (argument : BadArgument)
  /-- An index outside a list or text of that length. -/
  | indexOutOfBounds (index : Int64) (length : Nat)
  /-- A host method could not read its input. -/
  | unreadable (message : String)
  | malformed (malformed : Malformed)
  /-- A host method failed in its own words. -/
  | other (message : String)
  deriving DecidableEq, Repr

def Cause.message : Cause → String
  | typeMismatch expected got => s!"type mismatch: expected {expected.name}, got {got.name}"
  | undefinedVariable name => s!"undefined variable: {name}"
  | undefinedMethod name => s!"undefined method: {name}"
  | divisionByZero => "division by zero"
  | misuse m => s!"invalid operation: {m.message}"
  | argument a => s!"argument error: {a.message}"
  | indexOutOfBounds index length => s!"index {index.toInt} out of bounds for length {length}"
  | unreadable message => s!"parse error: {message}"
  | malformed m => s!"syntax error: {m.message}"
  | other message => message

end EvalError

/-- Why and where an expression has no value. -/
structure EvalError where
  cause : EvalError.Cause
  /-- The part of the expression text it concerns. -/
  span : Option Span := none
  deriving DecidableEq, Repr

namespace EvalError

/-- The error with a span, unless it has a closer one already. -/
def within (e : EvalError) (span : Span) : EvalError :=
  { e with span := e.span.or (some span) }

/-- The wording of an error, with its place. -/
def message (e : EvalError) : String :=
  match e.span with
  | none => e.cause.message
  | some span => s!"{e.cause.message} at {span.start}..{span.stop}"

def ofMisuse (m : Misuse) : EvalError := ⟨.misuse m, none⟩

def ofArgument (a : BadArgument) : EvalError := ⟨.argument a, none⟩

end EvalError

abbrev Eval (α : Type) := Except EvalError α

/-- Give the errors of an evaluation a place, unless they have a closer one already. -/
def Eval.within {α : Type} (result : Eval α) (span : Span) : Eval α :=
  result.mapError (·.within span)

/-- A computation that goes on with the value of another had that value. -/
theorem Eval.exists_of_bind {α β : Type} {x : Eval α} {f : α → Eval β} {b : β}
    (h : (x >>= f) = .ok b) : ∃ a, x = .ok a ∧ f a = .ok b := by
  cases x with
  | error e => cases h
  | ok a => exact ⟨a, rfl, h⟩

/-- What is made of the value of a computation is made of a value that it had. -/
theorem exists_of_map_eq_ok {ε α β : Type} {x : Except ε α} {f : α → β} {b : β}
    (h : x.map f = .ok b) : ∃ a, x = .ok a ∧ f a = b := by
  cases x with
  | error e => cases h
  | ok a =>
    cases h
    exact ⟨a, rfl, rfl⟩

end Stencil
