import Stencil.Decimal.Reader
import Stencil.Integer
import Stencil.Json.Reader

/-! Numbers, truth values, dates and times in TOML, each from its whole text. Dates and times are
checked, but stand for nothing. -/
namespace Stencil.Toml.Scalar

/-- Digits, with single underscores between them; none, if they are not so. -/
def grouped? (isDigit : Char → Bool) : List Char → Option (List Char)
  | [] => none
  | [d] => if isDigit d then some [d] else none
  | d :: '_' :: rest => if isDigit d then (grouped? isDigit rest).map (d :: ·) else none
  | d :: rest => if isDigit d then (grouped? isDigit rest).map (d :: ·) else none

/-- A whole number that fits 64 bits signed. -/
def whole? (n : Int) : Option Json :=
  (int64? n).map fun _ => .number (.int n)

/-- A whole number in another base than ten. -/
def inBase? (base : Nat) (digits : List Char) : Option Json := do
  let isDigit (c : Char) : Bool := (Json.hexValue? c).any (· < base)
  let digits ← grouped? isDigit digits
  whole? (digits.foldl (fun n d => base * n + (Json.hexValue? d).getD 0) 0 : Nat)

/-- A decimal number in front of its fraction: it does not begin with a zero, unless it is one. -/
def leading? (text : List Char) : Option (List Char) :=
  match grouped? Char.isDigit text with
  | some ['0'] => some ['0']
  | some ('0' :: _) => none
  | digits => digits

/-- An exponent; its absence is one too. -/
def exponent? : List Char → Option (List Char)
  | [] => some []
  | e :: rest =>
    if e = 'e' || e = 'E' then
      match rest with
      | '-' :: digits => (grouped? Char.isDigit digits).map fun ds => 'e' :: '-' :: ds
      | '+' :: digits => (grouped? Char.isDigit digits).map ('e' :: ·)
      | digits => (grouped? Char.isDigit digits).map ('e' :: ·)
    else none

/-- What follows the whole part of a number that has a fraction or an exponent. -/
def fraction? : List Char → Option (List Char)
  | '.' :: rest => do
    let inFraction (c : Char) : Bool := c.isDigit || c = '_'
    let digits ← grouped? Char.isDigit (rest.takeWhile inFraction)
    return '.' :: digits ++ (← exponent? (rest.dropWhile inFraction))
  | rest => exponent? rest

/-- A number with a fraction or an exponent. Those too large for a double are refused. -/
def float? (negative : Bool) (digits rest : List Char) : Option Json := do
  let x ← Decimal.readFloat? (digits ++ (← fraction? rest))
  if x.isInf && !negative then none
  else some (.number (.float (if negative then -x else x)))

/-- A decimal number behind its sign. -/
def decimal? (negative : Bool) (text : List Char) : Option Json :=
  match text with
  | ['i', 'n', 'f'] => some (.number (.float (if negative then -(1.0 / 0.0) else 1.0 / 0.0)))
  | ['n', 'a', 'n'] => some (.number (.float (0.0 / 0.0)))
  | text => do
    let inWhole (c : Char) : Bool := c.isDigit || c = '_'
    let digits ← leading? (text.takeWhile inWhole)
    match text.dropWhile inWhole with
    | [] =>
      let n : Int := Decimal.digitsValue digits
      whole? (if negative then -n else n)
    | rest => float? negative digits rest

/-- A number of so many digits within bounds, and the text behind it. -/
def field? (width low high : Nat) (text : List Char) : Option (Nat × List Char) :=
  let digits := text.take width
  let n := Decimal.digitsValue digits
  if digits.length = width ∧ digits.all Char.isDigit ∧ low ≤ n ∧ n ≤ high then
    some (n, text.drop width)
  else none

/-- A text behind a certain character. -/
def after? (c : Char) : List Char → Option (List Char)
  | [] => none
  | d :: rest => if d = c then some rest else none

def daysIn (year month : Nat) : Nat :=
  if month = 2 then if year % 4 = 0 ∧ (year % 100 ≠ 0 ∨ year % 400 = 0) then 29 else 28
  else if month = 4 ∨ month = 6 ∨ month = 9 ∨ month = 11 then 30
  else 31

/-- The text behind a date. -/
def afterDate? (text : List Char) : Option (List Char) := do
  let (year, rest) ← field? 4 0 9999 text
  let (month, rest) ← field? 2 1 12 (← after? '-' rest)
  let (_, rest) ← field? 2 1 (daysIn year month) (← after? '-' rest)
  return rest

/-- The text behind a fraction of a second, which need not be there. -/
def afterFraction? : List Char → Option (List Char)
  | '.' :: rest =>
    if (rest.takeWhile Char.isDigit).isEmpty then none else some (rest.dropWhile Char.isDigit)
  | rest => some rest

/-- The text behind a time of day. -/
def afterTime? (text : List Char) : Option (List Char) := do
  let (_, rest) ← field? 2 0 23 text
  let (_, rest) ← field? 2 0 59 (← after? ':' rest)
  let (_, rest) ← field? 2 0 60 (← after? ':' rest)
  afterFraction? rest

/-- Whether a text is an offset from universal time, or nothing. -/
def isOffset : List Char → Bool
  | [] => true
  | ['Z'] => true
  | ['z'] => true
  | s :: rest =>
    (s = '+' || s = '-') &&
      match field? 2 0 23 rest with
      | some (_, ':' :: minutes) => (field? 2 0 59 minutes).any fun m => m.2.isEmpty
      | _ => false

/-- Whether a text is a time of day, with or without an offset. -/
def isTimeWithOffset (text : List Char) : Bool :=
  (afterTime? text).any isOffset

/-- Whether a text is a date, a time, or both. -/
def isMoment (text : List Char) : Bool :=
  match afterDate? text with
  | some [] => true
  | some (t :: time) => (t = 'T' || t = 't') && isTimeWithOffset time
  | none => (afterTime? text).any List.isEmpty

/-- What a text stands for that is not quoted. -/
def read? (text : List Char) : Option Json :=
  match text with
  | ['t', 'r', 'u', 'e'] => some (.bool true)
  | ['f', 'a', 'l', 's', 'e'] => some (.bool false)
  | '0' :: 'x' :: digits => inBase? 16 digits
  | '0' :: 'o' :: digits => inBase? 8 digits
  | '0' :: 'b' :: digits => inBase? 2 digits
  | '-' :: digits => decimal? true digits
  | '+' :: digits => decimal? false digits
  | text => if isMoment text then some .unreadable else decimal? false text

end Stencil.Toml.Scalar
