import Stencil.Decimal.Reader
import Stencil.Expr.Error
import Stencil.Text.Blank
import Stencil.Text.Letter

/-! The lexemes of an expression text: identifiers, numbers, quoted texts and symbols, each with its
span. Blanks separate lexemes and are otherwise ignored. -/
namespace Stencil

/-- A symbol of one or two characters. -/
inductive Symbol where
  | arrow
  | openParen
  | closeParen
  | openBracket
  | closeBracket
  | comma
  | dot
  | question
  | colon
  | coalesce
  | or
  | and
  | equal
  | notEqual
  | less
  | lessEqual
  | greater
  | greaterEqual
  | plus
  | minus
  | star
  | slash
  | percent
  | bang
  deriving DecidableEq, Repr

namespace Symbol

/-- The name that messages give a symbol. -/
def name : Symbol → String
  | arrow => "Arrow"
  | openParen => "LParen"
  | closeParen => "RParen"
  | openBracket => "LBracket"
  | closeBracket => "RBracket"
  | comma => "Comma"
  | dot => "Dot"
  | question => "Question"
  | colon => "Colon"
  | coalesce => "Coalesce"
  | or => "OrOr"
  | and => "AndAnd"
  | equal => "EqEq"
  | notEqual => "NotEq"
  | less => "Lt"
  | lessEqual => "LtEq"
  | greater => "Gt"
  | greaterEqual => "GtEq"
  | plus => "Plus"
  | minus => "Minus"
  | star => "Star"
  | slash => "Slash"
  | percent => "Percent"
  | bang => "Bang"

def ofPair? : Char → Char → Option Symbol
  | '=', '>' => some arrow
  | '=', '=' => some equal
  | '!', '=' => some notEqual
  | '<', '=' => some lessEqual
  | '>', '=' => some greaterEqual
  | '&', '&' => some and
  | '|', '|' => some or
  | '?', '?' => some coalesce
  | _, _ => none

def ofChar? : Char → Option Symbol
  | '(' => some openParen
  | ')' => some closeParen
  | '[' => some openBracket
  | ']' => some closeBracket
  | ',' => some comma
  | '.' => some dot
  | '?' => some question
  | ':' => some colon
  | '<' => some less
  | '>' => some greater
  | '+' => some plus
  | '-' => some minus
  | '*' => some star
  | '/' => some slash
  | '%' => some percent
  | '!' => some bang
  | _ => none

end Symbol

/-- What a lexeme says. -/
inductive Word where
  | ident (name : String)
  | int (i : Int64)
  /-- A number with a fraction. -/
  | float (x : Float)
  /-- A quoted text, without its quotes and escapes. -/
  | str (s : String)
  | symbol (s : Symbol)

/-- A word and its place in the text. -/
structure Lexeme where
  word : Word
  span : Span

namespace Lexeme

def isIdentStart (c : Char) : Bool :=
  Text.isAlphabetic c || c = '_'

def isIdentPart (c : Char) : Bool :=
  Text.isAlphanumeric c || c = '_'

/-- The character that stands for itself or, after a backslash, for a control character. -/
def unescape : Char → Char
  | 'n' => '\n'
  | 't' => '\t'
  | 'r' => '\r'
  | '0' => '\x00'
  | c => c

/-- A quoted text after its opening quote: what it says, and its length with the closing quote. A
text that ends first is an error, with the number of characters in front of the place where a
character is missing; a lone backslash at the end is not in front of it. -/
def quoted : List Char → Except Nat (List Char × Nat)
  | [] => .error 0
  | '"' :: _ => .ok ([], 1)
  | ['\\'] => .error 0
  | '\\' :: c :: rest =>
    match quoted rest with
    | .ok (text, length) => .ok (unescape c :: text, length + 2)
    | .error length => .error (length + 2)
  | c :: rest =>
    match quoted rest with
    | .ok (text, length) => .ok (c :: text, length + 1)
    | .error length => .error (length + 1)

/-- A number that begins with these characters, and its length. A point belongs to it only if a
digit follows. -/
def number (text : List Char) : Option Word × Nat :=
  let whole := text.takeWhile Char.isDigit
  match text.dropWhile Char.isDigit with
  | '.' :: d :: rest =>
    if d.isDigit then
      let digits := whole ++ '.' :: d :: rest.takeWhile Char.isDigit
      ((Decimal.readDecimal? digits).map .float, digits.length)
    else ((Decimal.readInt64? whole).map .int, whole.length)
  | _ => ((Decimal.readInt64? whole).map .int, whole.length)

/-- A malformed text, found between two offsets. -/
def malformed (what : EvalError.Malformed) (start stop : Nat) : EvalError :=
  ⟨.malformed what, some ⟨start, stop⟩⟩

/-- The word that begins with `c`, which stands at `start`, and how many characters of `rest` it
takes. -/
def readWord (start : Nat) (c : Char) (rest : List Char) : Eval (Word × Nat) :=
  if isIdentStart c then
    let more := rest.takeWhile isIdentPart
    .ok (.ident (String.ofList (c :: more)), more.length)
  else if c.isDigit then
    match number (c :: rest) with
    | (some word, length) => .ok (word, length - 1)
    | (none, length) =>
      let digits := String.ofList ((c :: rest).take length)
      .error (malformed (.integerRange digits) start (start + length))
  else if c = '"' then
    match quoted rest with
    | .ok (text, length) => .ok (.str (String.ofList text), length)
    | .error length => .error (malformed .unterminatedString start (start + 1 + length))
  else
    match rest.head?.bind (Symbol.ofPair? c) with
    | some symbol => .ok (.symbol symbol, 1)
    | none =>
      match Symbol.ofChar? c with
      | some symbol => .ok (.symbol symbol, 0)
      | none => .error (malformed (.character c) start (start + 1))

/-- The lexemes of a text whose first character stands at `start`. -/
def ofChars (start : Nat) : List Char → Eval (List Lexeme)
  | [] => .ok []
  | c :: rest =>
    if Text.isBlank c then ofChars (start + 1) rest
    else
      match readWord start c rest with
      | .error e => .error e
      | .ok (word, more) =>
        let stop := start + 1 + more
        match ofChars stop (rest.drop more) with
        | .error e => .error e
        | .ok lexemes => .ok (⟨word, ⟨start, stop⟩⟩ :: lexemes)
termination_by text => text.length
decreasing_by all_goals (simp only [List.length_cons, List.length_drop]; omega)

def ofText (text : String) : Eval (List Lexeme) :=
  ofChars 0 text.toList

end Lexeme

end Stencil
