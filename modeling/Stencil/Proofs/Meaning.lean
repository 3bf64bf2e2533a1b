import Stencil.Proofs.Blocks

/-! What a template means.

`Host.meaning` gives a template its meaning block by block, out of the tree that its text says and with
no window, no cursor and no stack of open blocks: the parts of a block are evaluated where they stand,
a loop evaluates its body again, and a value with tokens in it means what its own text means, one
level deeper. What is carried from block to block is the text so far, the variables and how many
tokens were met, by which tokens are numbered. In a part that is not rendered tokens are counted and
nothing else happens.

A `while` may go on for ever, so its rounds are limited; where more are needed there is no meaning
within that limit. -/
namespace Stencil

/-- What is told of a rendering so far. -/
structure Told where
  text : String
  vars : Variables
  /-- How many tokens were met. -/
  tokens : Nat := 0

/-- What goes on with the telling, and may fail; or needs more rounds than there may be. -/
abbrev Effect (α : Type) : Type := ExceptT RenderError (StateT Told Option) α

namespace Effect
variable {α β : Type}

def endless : Effect α :=
  fun _ => none

/-- Meet a token; its number. -/
def token : Effect Nat := do
  let s ← get
  set { s with tokens := s.tokens + 1 }
  return s.tokens + 1

def write (text : List Char) : Effect Unit :=
  modify fun s => { s with text := s.text ++ String.ofList text }

def assign (name : String) (value : Value) : Effect Unit :=
  modify fun s => { s with vars := s.vars.set name value }

def remove (name : String) : Effect Unit :=
  modify fun s => { s with vars := s.vars.remove name }

/-- What the variables decide. -/
def consult (f : Variables → Except RenderError α) : Effect α := do
  let s ← get
  ofExcept (f s.vars)

/-- A round, and another one as long as it is to be done again; `limit` rounds at most. -/
def repeatWhile (round : Effect Unit) (again : Effect Bool) : (limit : Nat) → Effect Unit
  | 0 => endless
  | limit + 1 => do
    round
    if ← again then repeatWhile round again limit else pure ()

/-- A round for each of the items, to which a name is bound in turn; then the name is unbound. -/
def takeUp (name : String) (round : Effect Unit) : (items : List String) → Effect Unit
  | [] => remove name
  | item :: items => do
    assign name (.str item)
    round
    takeUp name round items

/-- A round for each of the items; if there are none a single one, for which nothing is bound. -/
def forEach (name : String) (round : Effect Unit) : (items : List String) → Effect Unit
  | [] => round
  | item :: items => takeUp name round (item :: items)

end Effect

namespace Host
variable {κ : Type} (host : Host κ)

/-- Meet a token that asks for a condition; its number and whether the part behind it is rendered. -/
def ask (live : Bool) (condition : Token.Condition) : Effect (Nat × Bool) := do
  let id ← Effect.token
  let holds ← if live then Effect.consult (host.decide id · condition) else pure false
  return (id, holds)

/-- Meet the token that closes a `while` with the number `id`; whether its body is rendered again. -/
def askAgain (holds : Bool) (id : Nat) (condition : Token.Condition) : Effect Bool := do
  let _ ← Effect.token
  if holds then Effect.consult (host.decide id · condition) else pure false

/-- Meet a token that asks for a sequence; its number and the items. -/
def gather (live : Bool) (sequence : String) : Effect (Nat × List String) := do
  let id ← Effect.token
  let items ←
    if live then Effect.consult fun vars => (host.evaluate id vars sequence).map itemsOf
    else pure []
  return (id, items)

/-- What the token with the number `id` defines a name as. -/
def defined (id : Nat) (vars : Variables) : Token.Meaning → Except RenderError Value
  | .text text => .ok (.str text)
  | .expression text => host.evaluate id vars text

def defineName (live : Bool) (name : String) (meaning : Token.Meaning) : Effect Unit := do
  let id ← Effect.token
  if live then
    let value ← Effect.consult (host.defined id · meaning)
    Effect.assign name value
  else pure ()

/-- Write the value of the token with that number; `expand` renders one with tokens in it. -/
def writeValue (expand : Nat → List Char → Effect Unit) (id : Nat) (directive : Token.Directive) :
    Effect Unit := do
  let s ← get
  match host.resolve s.vars directive with
  | .ok value =>
    let text := value.display.toList
    if Text.contains host.left text then expand id text else Effect.write text
  | .error missing =>
    match host.options.missing with
    | .ignore => pure ()
    | .mark => Effect.write (Rendering.marker host id missing.message)

def tellValue (expand : Nat → List Char → Effect Unit) (live : Bool) (directive : Token.Directive) :
    Effect Unit := do
  let id ← Effect.token
  if live then host.writeValue expand id directive else pure ()

end Host

/-- What blocks mean that stand in the value of the token `within`, if in any, and in the part of a
block that began with the token `inside`, if in any; `live` is whether the part is rendered. -/
def Blocks.eval {κ : Type} (host : Host κ) (limit : Nat) (expand : Nat → List Char → Effect Unit)
    (within : Option Nat) :
    Blocks → (inside : Option (Token.Kind × Nat)) → (live : Bool) → Effect Unit
  | closed, _, _ => pure ()
  | ending, none, _ => pure ()
  | ending, some (kind, id), _ => throw (.unterminatedBlock kind id)
  | unclosed offset, _, _ => throw (.unterminatedToken offset within)
  | faulty fault, _, _ => do
    let id ← Effect.token
    throw (.token id fault)
  | text literal rest, inside, live => do
    if live then Effect.write literal else pure ()
    rest.eval host limit expand within inside live
  | value directive rest, inside, live => do
    host.tellValue expand live directive
    rest.eval host limit expand within inside live
  | define name meaning rest, inside, live => do
    host.defineName live name meaning
    rest.eval host limit expand within inside live
  | ifThen condition yes rest, inside, live => do
    let (id, holds) ← host.ask live condition
    yes.eval host limit expand within (some (.ifOpen, id)) holds
    let _ ← Effect.token
    rest.eval host limit expand within inside live
  | ifElse condition yes no rest, inside, live => do
    let (id, holds) ← host.ask live condition
    yes.eval host limit expand within (some (.ifOpen, id)) holds
    let mark ← Effect.token
    no.eval host limit expand within (some (.elseMark, mark)) (live && !holds)
    let _ ← Effect.token
    rest.eval host limit expand within inside live
  | whileLoop condition body rest, inside, live => do
    let (id, holds) ← host.ask live condition
    let round := body.eval host limit expand within (some (.whileOpen, id)) holds
    Effect.repeatWhile round (host.askAgain holds id condition) limit
    rest.eval host limit expand within inside live
  | eachLoop name sequence body rest, inside, live => do
    let (id, items) ← host.gather live sequence
    let round := do
      body.eval host limit expand within (some (.eachOpen, id)) (!items.isEmpty)
      let _ ← Effect.token
    Effect.forEach name round items
    rest.eval host limit expand within inside live

theorem Blocks.eval_text {κ : Type} (host : Host κ) (limit : Nat)
    (expand : Nat → List Char → Effect Unit) (within : Option Nat) (literal : List Char)
    (rest : Blocks) (inside : Option (Token.Kind × Nat)) (live : Bool) :
    (text literal rest).eval host limit expand within inside live =
      ((if live then Effect.write literal else pure () : Effect Unit) >>= fun _ =>
        rest.eval host limit expand within inside live) := by
  cases live with
  | true => rfl
  | false => rfl

namespace Host
variable {κ : Type} (host : Host κ)

/-- What the value of the token with that number means, and the values in it, at most `depth` deep. -/
def expansion (limit : Nat) (g : Token.Grammar) : (depth id : Nat) → List Char → Effect Unit
  | 0, id, _ => throw (.recursionLimit host.options.maxDepth id)
  | depth + 1, id, value =>
    (g.blocks true value).eval host limit (expansion limit g depth) (some id) none true

/-- What a template means, if no loop needs more than `limit` rounds. -/
def meaning (limit : Nat) (template : List Char) : Effect Unit := do
  let s ← get
  let g := host.grammar s.vars
  (g.blocks false template).eval host limit (host.expansion limit g host.options.maxDepth) none none
    true

end Host

end Stencil
