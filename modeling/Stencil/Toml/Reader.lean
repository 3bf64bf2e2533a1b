import Stencil.Toml.Quoted
import Stencil.Toml.Scalar
import Stencil.Toml.Table

/-! Reading TOML, into the values that JSON has. -/
namespace Stencil.Toml

/-- How many brackets may be nested, and how many parts a dotted name may have. -/
def maxDepth : Nat := 79

def skipBlanks (text : List Char) : List Char :=
  text.dropWhile isBlank

/-- The text without blanks and a comment in front of it. -/
def skipComment (text : List Char) : List Char :=
  match skipBlanks text with
  | '#' :: rest => rest.dropWhile isPrintable
  | rest => rest

/-- The text behind the end of a line; the end of the text is one, too. -/
def lineEnd? : List Char → Option (List Char)
  | [] => some []
  | '\n' :: rest => some rest
  | '\r' :: '\n' :: rest => some rest
  | _ => none

/-- The text without blanks, comments and ends of lines in front of it. -/
def skipLines (text : List Char) : List Char :=
  match lineEnd? (skipComment text) with
  | none => skipComment text
  | some rest => if _h : rest.length < text.length then skipLines rest else []
termination_by text.length

/-! ### Names -/

/-- A character of a name without quotes. -/
def isNameChar (c : Char) : Bool :=
  c.isAlphanum || c = '_' || c = '-'

/-- One part of a name. -/
def part : Reader String
  | '"' :: rest => (Quoted.basic rest).map fun r => (String.ofList r.1, r.2)
  | '\'' :: rest => (Quoted.literal rest).map fun r => (String.ofList r.1, r.2)
  | text =>
    match text.takeWhile isNameChar with
    | [] => none
    | name => some (String.ofList name, text.dropWhile isNameChar)

/-- The parts of a dotted name, with the blanks around it. -/
def parts : (bound : Nat) → Reader (List String)
  | 0, _ => none
  | bound + 1, text => do
    let (name, rest) ← part (skipBlanks text)
    match skipBlanks rest with
    | '.' :: rest => do
      let (names, rest) ← parts bound rest
      return (name :: names, rest)
    | rest => return ([name], rest)

def path : Reader (List String) :=
  parts maxDepth

/-! ### Values -/

/-- A name with its value, and a reader for the value. -/
def assignment (value : Reader Json) : Reader (List String × Json) := fun text => do
  let (names, rest) ← path text
  let rest ← Scalar.after? '=' rest
  let (json, rest) ← value (skipBlanks rest)
  return ((names, json), rest)

/-- The items of a list behind its bracket or behind a comma. -/
def items (value : Reader Json) (text : List Char) : Option (List Json × List Char) :=
  match skipLines text with
  | ']' :: rest => some ([], rest)
  | item => do
    let (json, rest) ← value item
    match skipLines rest with
    | ']' :: rest => some ([json], rest)
    | ',' :: rest =>
      if _h : rest.length < text.length then do
        let (more, rest) ← items value rest
        return (json :: more, rest)
      else none
    | _ => none
termination_by text.length

/-- The names of a table between braces, added to those in front of them. -/
def members (value : Reader Json) (before : Members) (text : List Char) : Option (Json × List Char) := do
  let ((names, json), rest) ← assignment value text
  let names ← before.insert true names json
  match skipBlanks rest with
  | '}' :: rest => some (.object (membersToJson names), rest)
  | ',' :: rest => if _h : rest.length < text.length then members value names rest else none
  | _ => none
termination_by text.length

/-- A table behind its brace. -/
def inlineTable (value : Reader Json) (text : List Char) : Option (Json × List Char) :=
  match skipBlanks text with
  | '}' :: rest => some (.object [], rest)
  | rest => members value [] rest

/-- A character of a number, a truth value, a date or a time. -/
def isScalarChar (c : Char) : Bool :=
  c.isAlphanum || c = '_' || c = '-' || c = '+' || c = '.' || c = ':'

/-- A value without quotes and brackets. A blank may stand between a date and a time. -/
def scalar : Reader Json := fun text =>
  let word := text.takeWhile isScalarChar
  match text.dropWhile isScalarChar, Scalar.afterDate? word with
  | ' ' :: d :: rest, some [] =>
    if d.isDigit then
      if Scalar.isTimeWithOffset ((d :: rest).takeWhile isScalarChar) then
        some (.unreadable, (d :: rest).dropWhile isScalarChar)
      else none
    else some (.unreadable, ' ' :: d :: rest)
  | rest, _ => (Scalar.read? word).map fun json => (json, rest)

/-- A value, with brackets nested no deeper than so. -/
def value : (depth : Nat) → Reader Json
  | 0, '[' :: _ => none
  | 0, '{' :: _ => none
  | depth + 1, '[' :: rest => (items (value depth) rest).map fun r => (.array r.1, r.2)
  | depth + 1, '{' :: rest => inlineTable (value depth) rest
  | _, '"' :: rest => (Quoted.read ('"' :: rest)).map fun r => (.text (String.ofList r.1), r.2)
  | _, '\'' :: rest => (Quoted.read ('\'' :: rest)).map fun r => (.text (String.ofList r.1), r.2)
  | _, text => scalar text

/-! ### Documents -/

/-- The text behind a header, whose name is followed by so many brackets. -/
def header (brackets : List Char) : Reader (List String) := fun text => do
  let (names, rest) ← path text
  if brackets.isPrefixOf rest then return (names, rest.drop brackets.length) else none

/-- Read one line, from its first character on that is no blank. -/
def line (document : Document) : Reader Document
  | '[' :: '[' :: rest => do
    let (names, rest) ← header [']', ']'] rest
    return (← document.open? names true, rest)
  | '[' :: rest => do
    let (names, rest) ← header [']'] rest
    return (← document.open? names false, rest)
  | text => do
    let ((names, json), rest) ← assignment (value maxDepth) text
    return (← document.insert names json, rest)

def lines (document : Document) (text : List Char) : Option Document :=
  match skipLines text with
  | [] => some document
  | c :: rest => do
    let (document, rest) ← line document (c :: rest)
    let rest ← lineEnd? (skipComment rest)
    if _h : rest.length < text.length then lines document rest else none
termination_by text.length

/-- A text that is a TOML document. A byte order mark may stand in front of it. -/
def read (text : String) : Option Json :=
  let text := match text.toList with
    | '\uFEFF' :: rest => rest
    | text => text
  (lines {} text).map Document.toJson

end Stencil.Toml
