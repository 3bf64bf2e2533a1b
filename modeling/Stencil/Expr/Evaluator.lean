import Stencil.Expr.Eval
import Stencil.Expr.Parser

/-! Evaluators: what gives an expression text its value. The usual one reads the text and evaluates
it; it can remember what it has read. -/
namespace Stencil

/-- What gives an expression text its value over some variables. -/
abbrev Evaluator := String → Variables → Eval Value

/-- The usual evaluator: read the text without the blanks around it, and evaluate it. -/
def Evaluator.standard : Evaluator := fun text vars => do
  let lambda ← Lambda.parse (String.ofList (Text.trim text.toList))
  lambda.eval vars

/-- Expression texts that were read, each with the outcome, in the order of first use. -/
structure CompileCache where
  entries : List (String × Eval Lambda) := []
  /-- How many texts were ever read, since the cache was made. -/
  compiles : Nat := 0

namespace CompileCache

/-- The outcome of reading a text, looked up or else found out and kept. -/
def compile (cache : CompileCache) (text : String) : Eval Lambda × CompileCache :=
  match cache.entries.lookup text with
  | some outcome => (outcome, cache)
  | none =>
    let outcome := Lambda.parse text
    (outcome, ⟨cache.entries ++ [(text, outcome)], cache.compiles + 1⟩)

/-- The usual evaluator, with a cache. -/
def evaluate (cache : CompileCache) (text : String) (vars : Variables) :
    Eval Value × CompileCache :=
  let (outcome, cache) := cache.compile (String.ofList (Text.trim text.toList))
  (outcome.bind (·.eval vars), cache)

def size (cache : CompileCache) : Nat :=
  cache.entries.length

/-- Forget every text, but not how many were read. -/
def clear (cache : CompileCache) : CompileCache :=
  { cache with entries := [] }

end CompileCache

end Stencil
