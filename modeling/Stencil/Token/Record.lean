import Stencil.Token.Classify

/-! Tokens written down field by field.

The record of a token is begun with its number, its kind and its length, and the other fields are filled in
while the rest of its text is looked through. A field that is not filled in is empty: it is not ruled out
by the record that, for instance, an `else` has a name, or that a loop has nothing to evaluate. -/
namespace Stencil.Token

structure Record where
  id : Nat
  kind : Kind
  length : Nat
  name : String := ""
  mode : Mode := .plain
  /-- An expression, or the text that a name is defined as. -/
  expression : Option String := none
  deriving DecidableEq, Repr

def record (token : Token) : Record where
  id := token.id
  kind := token.kind
  length := token.length
  name := token.name
  mode := token.directive.mode
  expression := token.directive.source?

def Record.fault {α : Type} (record : Record) (fault : TokenFault) : Except RenderError α :=
  .error (.token record.id fault)

namespace Grammar

/-- Fill in a name, if it is acceptable. -/
def fillName (g : Grammar) (record : Record) (text : List Char) : Except RenderError Record :=
  let name := String.ofList text
  if g.accepts name then .ok { record with name } else record.fault (.invalidName name)

/-- Fill in an expression that stands for the name as well. -/
def fillExpression (record : Record) (text : List Char) : Record :=
  let text := String.ofList text
  { record with name := text, mode := .expression, expression := some text }

/-- Fill in what stands behind the keyword of an `if` or a `while`. -/
def fillCondition (g : Grammar) (record : Record) (rest : List Char) : Except RenderError Record :=
  match rest with
  | [] => record.fault (.noCondition record.kind)
  | '!' :: rest => do
    let negated := Text.trim rest
    if isExpression negated then record.fault (.negatedExpression record.kind)
    else
      let record ← g.fillName record negated
      return { record with mode := .falsy }
  | rest => do
    if isExpression rest then return fillExpression record rest
    else
      let record ← g.fillName record rest
      return { record with mode := .truthy }

/-- Fill in what stands behind the keyword of an `each`. -/
def fillSequence (g : Grammar) (record : Record) (rest : List Char) : Except RenderError Record :=
  match Quoting.find? colon rest with
  | none => record.fault .noSequence
  | some n => do
    let expression := Text.trim (rest.drop (n + 1))
    if isExpression expression then
      let record ← g.fillName record (Text.trim (rest.take n))
      return { record with mode := .expression, expression := some (String.ofList expression) }
    else record.fault (.plainSequence (String.ofList expression))

/-- Fill in a definition with its colon at offset `n`. -/
def fillDefinition (g : Grammar) (record : Record) (text : List Char) (n : Nat) :
    Except RenderError Record := do
  let record ← g.fillName record (Text.trim (text.take n))
  let value := Text.trim (text.drop (n + 1))
  match CloseScan.unwrap? g.left g.right value with
  | some inner =>
    let inner := Text.trim inner
    if isExpression inner then
      return { record with mode := .expression, expression := some (String.ofList inner) }
    else return { record with expression := some (String.ofList value) }
  | none =>
    if isExpression value then
      return { record with mode := .expression, expression := some (String.ofList value) }
    else return { record with expression := some (String.ofList (Quoting.strip value)) }

/-- Fill in what stands behind a keyword. -/
def fillDirective (g : Grammar) (record : Record) (rest : List Char) : Except RenderError Record :=
  match record.kind with
  | .ifOpen => g.fillCondition record rest
  | .whileOpen => g.fillCondition record rest
  | .eachOpen => g.fillSequence record rest
  | kind =>
    if rest.isEmpty then .ok record
    else record.fault (.unexpectedText kind (String.ofList rest))

/-- The record of a token without a keyword. -/
def fillValueOrDefinition (g : Grammar) (id length : Nat) (text : List Char) :
    Except RenderError Record :=
  match Quoting.find? colon text, Quoting.find? arrow text with
  | some n, some m =>
    if n < m then g.fillDefinition { id, kind := .define, length } text n
    else .ok (fillExpression { id, kind := .value, length } text)
  | some n, none => g.fillDefinition { id, kind := .define, length } text n
  | none, some _ => .ok (fillExpression { id, kind := .value, length } text)
  | none, none => g.fillName { id, kind := .value, length } text

/-- The record of the token with a number, from the text between its delimiters. -/
def fill (g : Grammar) (id : Nat) (raw : List Char) : Except RenderError Record :=
  let length := raw.length
  let text := Text.trim raw
  if text.isEmpty then .ok { id, kind := .empty, length }
  else
    let (word, rest) := Text.firstWord text
    match Kind.ofKeyword? (String.ofList (Text.lower word)) with
    | some kind => g.fillDirective { id, kind, length } (Text.trim rest)
    | none => g.fillValueOrDefinition id length text

end Grammar

end Stencil.Token
