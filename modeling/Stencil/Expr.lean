import Stencil.Expr.Error

/-! Expressions. A `Lambda` binds one parameter to the variables of a template; its body is an
`Expr`, in which nodes that name something carry the span of that name. -/
namespace Stencil

inductive UnaryOp where
  | not
  | negate
  deriving DecidableEq, Repr

inductive BinaryOp where
  | add
  | subtract
  | multiply
  | divide
  | remainder
  | equal
  | notEqual
  | less
  | lessEqual
  | greater
  | greaterEqual
  | and
  | or
  | coalesce
  deriving DecidableEq, Repr

inductive Expr where
  /-- A value written out. -/
  | literal (value : Value)
  /-- A bare name: the parameter, or a name that static methods are called on. -/
  | ident (name : String) (span : Span)
  /-- A property of a value, or a variable read off the parameter. -/
  | member (target : Expr) (name : String) (span : Span)
  | call (target : Expr) (method : String) (args : List Expr) (span : Span)
  /-- An element by position; the span is that of the first lexeme of the index. -/
  | index (target index : Expr) (span : Span)
  | unary (op : UnaryOp) (operand : Expr)
  | binary (op : BinaryOp) (left right : Expr)
  | conditional (condition yes no : Expr)
  deriving Inhabited

/-- An expression with its parameter, `param => body`. -/
structure Lambda where
  /-- The name that stands for the variables. -/
  param : String
  body : Expr
  deriving Inhabited

end Stencil
