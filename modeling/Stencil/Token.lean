/-! Tokens: what stands between a left and a right delimiter, by meaning. -/
namespace Stencil

namespace Token

/-- The kinds of token, which is what a message about a token names. -/
inductive Kind where
  | value
  | define
  | ifOpen
  | elseMark
  | ifClose
  | whileOpen
  | whileClose
  | eachOpen
  | eachClose
  | empty
  deriving DecidableEq, Repr, Inhabited

namespace Kind

/-- The word for a kind; for a directive, the one it is written with. -/
def keyword : Kind → String
  | value => "value"
  | define => "define"
  | ifOpen => "if"
  | elseMark => "else"
  | ifClose => "/if"
  | whileOpen => "while"
  | whileClose => "/while"
  | eachOpen => "each"
  | eachClose => "/each"
  | empty => "undefined"

/-- Whether tokens of the kind open a body that can be replayed. -/
def isLoop : Kind → Bool
  | whileOpen | eachOpen => true
  | _ => false

def isLoopClose : Kind → Bool
  | whileClose | eachClose => true
  | _ => false

/-- The kind of the directive written with a word. -/
def ofKeyword? : String → Option Kind
  | "if" => some ifOpen
  | "else" => some elseMark
  | "/if" => some ifClose
  | "while" => some whileOpen
  | "/while" => some whileClose
  | "each" => some eachOpen
  | "/each" => some eachClose
  | _ => none

end Kind

/-- What decides an `if` or a `while`. -/
inductive Condition where
  /-- The variable is truthy. -/
  | holds (name : String)
  /-- The variable is not truthy. -/
  | fails (name : String)
  /-- The value of the expression is truthy. -/
  | expression (text : String)
  deriving DecidableEq, Repr

/-- What a name is defined as. -/
inductive Meaning where
  /-- A text, as it stands. -/
  | text (text : String)
  /-- The value of an expression. -/
  | expression (text : String)
  deriving DecidableEq, Repr

/-- What a token says. -/
inductive Directive where
  | empty
  /-- Write the value of a variable. -/
  | value (name : String)
  /-- Write the value of an expression. -/
  | expression (text : String)
  | define (name : String) (meaning : Meaning)
  /-- Render what follows if the condition holds. -/
  | ifOpen (condition : Condition)
  /-- Render what follows if the condition does not hold. -/
  | elseMark
  | ifClose
  /-- Render what follows as long as the condition holds. -/
  | whileOpen (condition : Condition)
  | whileClose
  /-- Render what follows once for each item of the value of an expression. -/
  | eachOpen (name : String) (sequence : String)
  | eachClose
  deriving DecidableEq, Repr

/-- How a token uses its name or its text. -/
inductive Mode where
  /-- As it stands. -/
  | plain
  /-- It asks whether a variable is truthy. -/
  | truthy
  /-- It asks whether a variable is not truthy. -/
  | falsy
  | expression
  deriving DecidableEq, Repr

/-- The variable that a condition asks about, or the text of its expression. -/
def Condition.subject : Condition → String
  | holds name => name
  | fails name => name
  | expression text => text

def Condition.mode : Condition → Mode
  | holds _ => .truthy
  | fails _ => .falsy
  | expression _ => .expression

def Condition.expression? : Condition → Option String
  | expression text => some text
  | _ => none

/-- The text of a meaning, as it stands or to be evaluated. -/
def Meaning.source : Meaning → String
  | text t => t
  | expression t => t

namespace Directive

def kind : Directive → Kind
  | empty => .empty
  | value _ => .value
  | expression _ => .value
  | define _ _ => .define
  | ifOpen _ => .ifOpen
  | elseMark => .elseMark
  | ifClose => .ifClose
  | whileOpen _ => .whileOpen
  | whileClose => .whileClose
  | eachOpen _ _ => .eachOpen
  | eachClose => .eachClose

/-- The name that a directive looks up, defines or binds; for an expression, its text. -/
def name : Directive → String
  | value name => name
  | expression text => text
  | define name _ => name
  | ifOpen condition => condition.subject
  | whileOpen condition => condition.subject
  | eachOpen name _ => name
  | _ => ""

/-- How a directive uses its name or its text. -/
def mode : Directive → Mode
  | expression _ => .expression
  | define _ (.expression _) => .expression
  | ifOpen condition => condition.mode
  | whileOpen condition => condition.mode
  | eachOpen _ _ => .expression
  | _ => .plain

/-- The expression of a directive, or the text that it defines a name as. -/
def source? : Directive → Option String
  | expression text => some text
  | define _ meaning => some meaning.source
  | ifOpen condition => condition.expression?
  | whileOpen condition => condition.expression?
  | eachOpen _ sequence => some sequence
  | _ => none

end Directive

end Token

structure Token where
  /-- Its number; tokens are numbered from 1 in the order in which they are met, again and again in
  a loop. -/
  id : Nat
  directive : Token.Directive
  /-- The number of characters between the delimiters. -/
  length : Nat
  deriving DecidableEq, Repr

def Token.kind (token : Token) : Token.Kind :=
  token.directive.kind

def Token.name (token : Token) : String :=
  token.directive.name

end Stencil
