import Stencil.Delimiter.Scan
import Stencil.Error
import Stencil.Text.Blank
import Stencil.Text.Case

/-! The meaning of a token, read off the text between its delimiters.

A directive begins with its keyword, in any letter case. In any other token the first colon or arrow
outside quotes decides: a colon makes it a definition, an arrow an expression, and neither the name
of a variable. -/
namespace Stencil.Token

/-- The mark between the parameter and the body of an expression. -/
def arrow : List Char := ['=', '>']

/-- The mark between a name and what it is defined as. -/
def colon : List Char := [':']

/-- Whether a text holds an arrow outside quotes, that is, whether it is an expression. -/
def isExpression (text : List Char) : Bool :=
  Quoting.occurs arrow text

/-- What tokens are read with. -/
structure Grammar where
  left : List Char
  right : List Char
  /-- Which names are acceptable. -/
  accepts : String → Bool

namespace Grammar

/-- The name that a text is, if it is acceptable. -/
def name (g : Grammar) (text : List Char) : Except TokenFault String :=
  let name := String.ofList text
  if g.accepts name then .ok name else .error (.invalidName name)

/-- The condition behind the keyword of an `if` or a `while`. -/
def condition (g : Grammar) (kind : Kind) (text : List Char) : Except TokenFault Condition :=
  match text with
  | [] => .error (.noCondition kind)
  | '!' :: rest =>
    let negated := Text.trim rest
    if isExpression negated then .error (.negatedExpression kind)
    else (g.name negated).map .fails
  | text =>
    if isExpression text then .ok (.expression (String.ofList text))
    else (g.name text).map .holds

/-- The name and the sequence behind the keyword of an `each`. -/
def sequence (g : Grammar) (text : List Char) : Except TokenFault Directive :=
  match Quoting.find? colon text with
  | none => .error .noSequence
  | some n =>
    let expression := Text.trim (text.drop (n + 1))
    if isExpression expression then
      (g.name (Text.trim (text.take n))).map fun name =>
        .eachOpen name (String.ofList expression)
    else .error (.plainSequence (String.ofList expression))

/-- What a name is defined as. One pair of delimiters around an expression is taken off, around
anything else it belongs to the text; one layer of quotes around a text is taken off. -/
def meaning (g : Grammar) (text : List Char) : Meaning :=
  match CloseScan.unwrap? g.left g.right text with
  | some inner =>
    let inner := Text.trim inner
    if isExpression inner then .expression (String.ofList inner)
    else .text (String.ofList text)
  | none =>
    if isExpression text then .expression (String.ofList text)
    else .text (String.ofList (Quoting.strip text))

/-- The definition with its colon at offset `n`. -/
def definition (g : Grammar) (text : List Char) (n : Nat) : Except TokenFault Directive :=
  (g.name (Text.trim (text.take n))).map fun name =>
    .define name (g.meaning (Text.trim (text.drop (n + 1))))

/-- A directive that consists of its keyword. -/
def alone (kind : Kind) (rest : List Char) (directive : Directive) : Except TokenFault Directive :=
  if rest.isEmpty then .ok directive
  else .error (.unexpectedText kind (String.ofList rest))

/-- The directive of a kind, from the text behind its keyword. -/
def directive (g : Grammar) (kind : Kind) (rest : List Char) : Except TokenFault Directive :=
  match kind with
  | .ifOpen => (g.condition kind rest).map .ifOpen
  | .whileOpen => (g.condition kind rest).map .whileOpen
  | .eachOpen => g.sequence rest
  | .elseMark => alone kind rest .elseMark
  | .ifClose => alone kind rest .ifClose
  | .whileClose => alone kind rest .whileClose
  | .eachClose => alone kind rest .eachClose
  | _ => .ok .empty

/-- A token without a keyword. -/
def valueOrDefinition (g : Grammar) (text : List Char) : Except TokenFault Directive :=
  match Quoting.find? colon text, Quoting.find? arrow text with
  | some n, some m =>
    if n < m then g.definition text n else .ok (.expression (String.ofList text))
  | some n, none => g.definition text n
  | none, some _ => .ok (.expression (String.ofList text))
  | none, none => (g.name text).map .value

/-- What a token says, from the text between its delimiters. -/
def read (g : Grammar) (raw : List Char) : Except TokenFault Directive :=
  let text := Text.trim raw
  if text.isEmpty then .ok .empty
  else
    let (word, rest) := Text.firstWord text
    match Kind.ofKeyword? (String.ofList (Text.lower word)) with
    | some kind => g.directive kind (Text.trim rest)
    | none => g.valueOrDefinition text

/-- The token with a number, from the text between its delimiters. -/
def classify (g : Grammar) (id : Nat) (raw : List Char) : Except RenderError Token :=
  match g.read raw with
  | .ok directive => .ok ⟨id, directive, raw.length⟩
  | .error fault => .error (.token id fault)

end Grammar

end Stencil.Token
