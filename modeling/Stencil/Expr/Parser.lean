import Stencil.Expr
import Stencil.Expr.Lexeme

/-! Reading an expression from its lexemes.

From the loosest binding to the tightest: the conditional, which groups to the right; `??`, which
does too; the six levels of binary operators, which group to the left; the prefix operators; and
members, calls and indexes after an operand. A bracket starts over at the conditional.

Every function takes the lexemes that remain and returns those it leaves over, with a proof that
they are fewer. A whole expression is reached again only inside a bracket or a conditional, that is
on fewer lexemes, so each function below takes the reader of whole expressions as an argument and
`expression` ties the knot. -/
namespace Stencil.Expr.Parser

open EvalError (Malformed Wanted)

/-- What was read from `lexemes`, and the fewer lexemes left over. -/
abbrev Result (α : Type) (lexemes : List Lexeme) :=
  Eval { r : α × List Lexeme // r.2.length < lexemes.length }

/-- What was read from `lexemes`, perhaps nothing at all, and the lexemes left over. -/
abbrev Rest (α : Type) (lexemes : List Lexeme) :=
  Eval { r : α × List Lexeme // r.2.length ≤ lexemes.length }

/-- A reader of expressions from fewer than `bound` lexemes. -/
abbrev Inner (bound : Nat) :=
  (lexemes : List Lexeme) → lexemes.length < bound → Result Expr lexemes

/-- The place of the next lexeme; at the end of the text, that of the last one. -/
def here (last : Span) : List Lexeme → Span
  | [] => last
  | lexeme :: _ => lexeme.span

/-- The error for something else than what was wanted next. -/
def expected (last : Span) (wanted : Wanted) (lexemes : List Lexeme) : EvalError :=
  ⟨.malformed (.expected wanted), some (here last lexemes)⟩

def startsWith (symbol : Symbol) : List Lexeme → Bool
  | ⟨.symbol s, _⟩ :: _ => s = symbol
  | _ => false

/-- Pass over a symbol that must come next. -/
def expect (last : Span) (symbol : Symbol) (wanted : Wanted) :
    (lexemes : List Lexeme) → Result Unit lexemes
  | ⟨.symbol s, span⟩ :: rest =>
    if s = symbol then .ok ⟨((), rest), by simp⟩
    else .error (expected last wanted (⟨.symbol s, span⟩ :: rest))
  | lexemes => .error (expected last wanted lexemes)

/-- The operators of the binary levels, loosest first. -/
def levels : List (Symbol → Option BinaryOp) := [
  fun | .or => some .or | _ => none,
  fun | .and => some .and | _ => none,
  fun | .equal => some .equal | .notEqual => some .notEqual | _ => none,
  fun
    | .less => some .less
    | .lessEqual => some .lessEqual
    | .greater => some .greater
    | .greaterEqual => some .greaterEqual
    | _ => none,
  fun | .plus => some .add | .minus => some .subtract | _ => none,
  fun
    | .star => some .multiply
    | .slash => some .divide
    | .percent => some .remainder
    | _ => none]

def prefixOp? : Symbol → Option UnaryOp
  | .bang => some .not
  | .minus => some .negate
  | _ => none

/-- What a bare name means: a constant, or an identifier. -/
def named (name : String) (span : Span) : Expr :=
  match name with
  | "true" => .literal (.bool true)
  | "false" => .literal (.bool false)
  | "null" => .literal .null
  | name => .ident name span

section
variable (last : Span) {bound : Nat} (inner : Inner bound)

/-- A literal, a name or an expression in parentheses. -/
def primary : (lexemes : List Lexeme) → lexemes.length ≤ bound → Result Expr lexemes
  | [], _ => .error ⟨.malformed .ended, some last⟩
  | ⟨.int i, _⟩ :: rest, _ => .ok ⟨(.literal (.int i), rest), by simp⟩
  | ⟨.float x, _⟩ :: rest, _ => .ok ⟨(.literal (.float x), rest), by simp⟩
  | ⟨.str s, _⟩ :: rest, _ => .ok ⟨(.literal (.str s), rest), by simp⟩
  | ⟨.ident name, span⟩ :: rest, _ => .ok ⟨(named name span, rest), by simp⟩
  | ⟨.symbol symbol, span⟩ :: rest, h =>
    if symbol = .openParen then do
      let ⟨(e, rest'), h'⟩ ← inner rest (by simp at h; omega)
      let ⟨(_, rest''), h''⟩ ← expect last .closeParen .groupClose rest'
      return ⟨(e, rest''), by simp at *; omega⟩
    else .error ⟨.malformed (.symbol symbol.name), some span⟩

/-- The arguments of a call up to its closing parenthesis, at least one. -/
def arguments (lexemes : List Lexeme) (h : lexemes.length < bound) :
    Result (List Expr) lexemes := do
  let ⟨(e, rest), h'⟩ ← inner lexemes h
  match rest, h' with
  | ⟨.symbol .comma, _⟩ :: more, h' =>
    let ⟨(es, rest'), h''⟩ ← arguments more (by simp at h'; omega)
    return ⟨(e :: es, rest'), by simp at *; omega⟩
  | rest, h' =>
    let ⟨(_, rest'), h''⟩ ← expect last .closeParen .argumentsClose rest
    return ⟨([e], rest'), by simp at *; omega⟩
termination_by lexemes.length
decreasing_by simp at *; omega

/-- Members, calls and indexes that follow an operand. -/
def suffixes (e : Expr) (lexemes : List Lexeme) (h : lexemes.length ≤ bound) :
    Rest Expr lexemes :=
  match lexemes, h with
  | ⟨.symbol .dot, _⟩ :: ⟨.ident name, span⟩ :: ⟨.symbol .openParen, _⟩ ::
      ⟨.symbol .closeParen, _⟩ :: rest, h => do
    let ⟨r, h'⟩ ← suffixes (.call e name [] span) rest (Nat.le_trans (Nat.le_add_right _ 4) h)
    return ⟨r, Nat.le_trans h' (Nat.le_add_right _ 4)⟩
  | ⟨.symbol .dot, _⟩ :: ⟨.ident name, span⟩ :: ⟨.symbol .openParen, _⟩ :: rest, h => do
    let ⟨(args, rest'), h'⟩ ←
      arguments last inner rest (Nat.le_trans (Nat.le_add_right (rest.length + 1) 2) h)
    let ⟨r, h''⟩ ← suffixes (.call e name args span) rest'
      (Nat.le_trans (Nat.le_of_lt h') (Nat.le_trans (Nat.le_add_right _ 3) h))
    return ⟨r, Nat.le_trans h'' (Nat.le_trans (Nat.le_of_lt h') (Nat.le_add_right _ 3))⟩
  | ⟨.symbol .dot, _⟩ :: ⟨.ident name, span⟩ :: rest, h => do
    let ⟨r, h'⟩ ← suffixes (.member e name span) rest (Nat.le_trans (Nat.le_add_right _ 2) h)
    return ⟨r, Nat.le_trans h' (Nat.le_add_right _ 2)⟩
  | ⟨.symbol .dot, _⟩ :: rest, _ => .error (expected last .memberName rest)
  | ⟨.symbol .openBracket, _⟩ :: rest, h => do
    let ⟨(i, rest'), hi⟩ ← inner rest h
    let ⟨(_, rest''), hc⟩ ← expect last .closeBracket .indexClose rest'
    have hr : rest''.length ≤ rest.length := Nat.le_trans (Nat.le_of_lt hc) (Nat.le_of_lt hi)
    let ⟨r, h'⟩ ← suffixes (.index e i (here last rest)) rest''
      (Nat.le_trans hr (Nat.le_of_lt h))
    return ⟨r, Nat.le_trans h' (Nat.le_trans hr (Nat.le_add_right _ 1))⟩
  | lexemes, _ => .ok ⟨(e, lexemes), Nat.le_refl _⟩
termination_by lexemes.length
decreasing_by
  · simp only [List.length_cons]
    omega
  · simp only [List.length_cons] at h' ⊢
    omega
  · simp only [List.length_cons]
    omega
  · simp only [List.length_cons]
    omega

/-- An operand with what follows it. -/
def postfixed (lexemes : List Lexeme) (h : lexemes.length ≤ bound) : Result Expr lexemes := do
  let ⟨(e, rest), h'⟩ ← primary last inner lexemes h
  let ⟨r, h''⟩ ← suffixes last inner e rest (by simp at *; omega)
  return ⟨r, by simp at *; omega⟩

/-- An operand behind any number of prefix operators. -/
def prefixed : (lexemes : List Lexeme) → lexemes.length ≤ bound → Result Expr lexemes
  | ⟨.symbol symbol, span⟩ :: rest, h =>
    match prefixOp? symbol with
    | some op => do
      let ⟨(e, rest'), h'⟩ ← prefixed rest (by simp at h; omega)
      return ⟨(.unary op e, rest'), by simp at *; omega⟩
    | none => postfixed last inner (⟨.symbol symbol, span⟩ :: rest) h
  | lexemes, h => postfixed last inner lexemes h

/-- A reader of expressions from at most `bound` lexemes. -/
abbrev Operand (bound : Nat) :=
  (lexemes : List Lexeme) → lexemes.length ≤ bound → Result Expr lexemes

/-- Operators of one level with their right operands, folded onto a left operand. -/
def chain (op? : Symbol → Option BinaryOp) (operand : Operand bound) (left : Expr)
    (lexemes : List Lexeme) (h : lexemes.length ≤ bound) : Rest Expr lexemes :=
  match lexemes, h with
  | ⟨.symbol symbol, span⟩ :: rest, h =>
    match op? symbol with
    | some op => do
      let ⟨(right, rest'), h'⟩ ← operand rest (by simp at h; omega)
      let ⟨r, h''⟩ ← chain op? operand (.binary op left right) rest' (by simp at *; omega)
      return ⟨r, by simp at *; omega⟩
    | none => .ok ⟨(left, ⟨.symbol symbol, span⟩ :: rest), by simp⟩
  | lexemes, _ => .ok ⟨(left, lexemes), by simp⟩
termination_by lexemes.length
decreasing_by simp at *; omega

/-- Operands joined by the operators of the given levels, loosest first. -/
def joined : List (Symbol → Option BinaryOp) → Operand bound
  | [], lexemes, h => prefixed last inner lexemes h
  | op? :: tighter, lexemes, h => do
    let ⟨(left, rest), h'⟩ ← joined tighter lexemes h
    let ⟨r, h''⟩ ← chain op? (joined tighter) left rest (by simp at *; omega)
    return ⟨r, by simp at *; omega⟩

/-- Alternatives for a missing value, separated by `??`. -/
def coalesced (lexemes : List Lexeme) (h : lexemes.length ≤ bound) : Result Expr lexemes := do
  let ⟨(left, rest), h'⟩ ← joined last inner levels lexemes h
  match rest, h' with
  | ⟨.symbol .coalesce, _⟩ :: more, h' =>
    let ⟨(right, rest'), h''⟩ ← coalesced more (by simp at h'; omega)
    return ⟨(.binary .coalesce left right, rest'), by simp at *; omega⟩
  | rest, h' => return ⟨(left, rest), h'⟩
termination_by lexemes.length
decreasing_by simp at *; omega

/-- A choice `condition ? yes : no`, or just what would be the condition. -/
def choice (lexemes : List Lexeme) (h : lexemes.length ≤ bound) : Result Expr lexemes := do
  let ⟨(condition, rest), h'⟩ ← coalesced last inner lexemes h
  match rest, h' with
  | ⟨.symbol .question, _⟩ :: more, h' =>
    let ⟨(yes, rest'), _⟩ ← inner more (by simp at h'; omega)
    let ⟨(_, rest''), _⟩ ← expect last .colon .conditionalColon rest'
    let ⟨(no, rest'''), _⟩ ← inner rest'' (by simp at *; omega)
    return ⟨(.conditional condition yes no, rest'''), by simp at *; omega⟩
  | rest, h' => return ⟨(condition, rest), h'⟩

end

def expression (last : Span) (lexemes : List Lexeme) : Result Expr lexemes :=
  choice last (fun lexemes' _ => expression last lexemes') lexemes (Nat.le_refl _)
termination_by lexemes.length

/-- The parameter and the arrow in front of the body. -/
def parameter (last : Span) (lexemes : List Lexeme) : Eval (String × List Lexeme) := do
  let parenthesized := startsWith .openParen lexemes
  let lexemes := if parenthesized then lexemes.tail else lexemes
  match lexemes with
  | ⟨.ident name, _⟩ :: rest =>
    let rest ←
      if parenthesized then do
        let ⟨(_, rest), _⟩ ← expect last .closeParen .parameterClose rest
        pure rest
      else pure rest
    let ⟨(_, rest), _⟩ ← expect last .arrow .arrow rest
    return (name, rest)
  | lexemes => .error (expected last .parameter lexemes)

end Parser

/-- The place of the last of some lexemes; the start of the text, if there is none. -/
def lastSpan (lexemes : List Lexeme) : Span :=
  match lexemes.getLast? with
  | some lexeme => lexeme.span
  | none => ⟨0, 0⟩

end Expr

/-- Read `param => body`. All lexemes must be used up. -/
def Lambda.ofLexemes (lexemes : List Lexeme) : Eval Lambda := do
  let last := Expr.lastSpan lexemes
  let (param, rest) ← Expr.Parser.parameter last lexemes
  let ⟨(body, rest), _⟩ ← Expr.Parser.expression last rest
  match rest with
  | [] => return ⟨param, body⟩
  | extra :: _ => .error ⟨.malformed .trailing, some extra.span⟩

/-- Read an expression text. -/
def Lambda.parse (text : String) : Eval Lambda := do
  Lambda.ofLexemes (← Lexeme.ofText text)

end Stencil
