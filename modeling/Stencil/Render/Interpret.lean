import Stencil.Render.State
import Stencil.Value.Truth

/-! What a token does: to the open blocks, to the variables, and to the output.

In a part that is not rendered blocks are opened and closed but nothing else happens. A token that
fails leaves everything as it was, but for an `/if` whose `if` is not there. -/
namespace Stencil

/-- Why a value is missing. -/
inductive Missing where
  | empty
  | noValue (text : String)
  | failed (error : EvalError)
  | undefined (name : String)
  deriving DecidableEq, Repr

def Missing.message : Missing → String
  | empty => "Empty token"
  | noValue text => s!"'{text}' produced no value"
  | failed error => error.message
  | undefined name => s!"'{name}' is not defined"

namespace Host
variable {κ : Type} (host : Host κ)

/-- What interpreting a token leads to, and the state after it. -/
abbrev Outcome (κ α : Type) := Except RenderError α × RenderState κ

/-- The value of a name: that of a variable or else, if the options say so, of the process
environment. A variable without a value hides the environment. -/
def lookup (vars : Variables) (name : String) : Option Value :=
  let fallback :=
    if host.options.environmentFallback then (host.environment.lookup name).map .str else none
  ((vars.get? name).or fallback).filter fun v => !v.isNull

def isTruthy (vars : Variables) (name : String) : Bool :=
  (host.lookup vars name).any Value.isTruthy

/-- Evaluate an expression whose value cannot be done without. -/
def evaluate (id : Nat) (vars : Variables) (text : String) : Except RenderError Value :=
  (host.evaluator text vars).mapError (.expression id)

def decide (id : Nat) (vars : Variables) : Token.Condition → Except RenderError Bool
  | .holds name => .ok (host.isTruthy vars name)
  | .fails name => .ok (!host.isTruthy vars name)
  | .expression text => (host.evaluate id vars text).map Value.isTruthy

/-- The items that a value stands for: those of a list, none without a value, or itself. -/
def itemsOf : Value → List String
  | .null => []
  | .list items => items.map Value.display
  | v => [v.display]

/-- The value that a token writes. -/
def resolve (vars : Variables) : Token.Directive → Except Missing Value
  | .expression text =>
    match host.evaluator text vars with
    | .ok v => if v.isNull then .error (.noValue text) else .ok v
    | .error e => .error (.failed e)
  | .value name =>
    match host.lookup vars name with
    | some v => .ok v
    | none => .error (.undefined name)
  | _ => .error .empty

/-- What is done about the value of a token, before a callback has its say. -/
def resolution (vars : Variables) (directive : Token.Directive) : Resolution :=
  match host.resolve vars directive with
  | .ok v => ⟨.replace, some v.display⟩
  | .error missing =>
    match host.options.missing with
    | .ignore => .ignore
    | .mark => ⟨.mark, some missing.message⟩

def write (token : Token) (s : RenderState κ) : Resolution × RenderState κ :=
  let resolution := host.resolution s.vars token.directive
  match host.callback with
  | none => (resolution, s)
  | some callback =>
    let (resolution, memory) := callback s.memory token resolution
    (resolution, { s with memory })

def define (token : Token) (name : String) (meaning : Token.Meaning) (s : RenderState κ) :
    Outcome κ Resolution :=
  let value : Except RenderError Value :=
    match meaning with
    | .text t => .ok (.str t)
    | .expression text => host.evaluate token.id s.vars text
  match value with
  | .ok v => (.ok .ignore, { s with vars := s.vars.set name v })
  | .error e => (.error e, s)

def push (frame : Frame) (s : RenderState κ) : Outcome κ Resolution :=
  (.ok .ignore, { s with frames := frame :: s.frames })

/-- Open an `if`, or a `while` that starts over at an offset. -/
def openConditional (token : Token) (condition : Token.Condition) (level : Nat)
    (resume : Option Nat) (s : RenderState κ) : Outcome κ Resolution :=
  match host.decide token.id s.vars condition with
  | .ok truthy => push { token, truthy, live := true, level, resume } s
  | .error e => (.error e, s)

/-- Open an `each`. The first item is bound at once; without items the body is not rendered. -/
def openEach (token : Token) (name text : String) (level resume : Nat) (s : RenderState κ) :
    Outcome κ Resolution :=
  match host.evaluate token.id s.vars text with
  | .error e => (.error e, s)
  | .ok v =>
    match itemsOf v with
    | [] => push { token, truthy := false, live := true, level } s
    | item :: items =>
      push { token, truthy := true, live := true, level, resume := some resume, items := some items }
        { s with vars := s.vars.set name (.str item) }

/-- The error for a token whose block is not open. -/
def unmatched (token : Token) (opener : Token.Kind) : RenderError :=
  .token token.id (.unmatched token.kind opener)

/-- Turn to the other part of an `if`. -/
def markElse (token : Token) (level : Nat) (s : RenderState κ) : Outcome κ Resolution :=
  match s.frames with
  | [] => (.error (unmatched token .ifOpen), s)
  | top :: _ =>
    if top.kind = .ifOpen ∧ top.level = level then
      push { token, truthy := top.live && !top.truthy, live := top.live, level } s
    else (.error (unmatched token .ifOpen), s)

/-- Close an `if`, together with its `else`. -/
def closeIf (token : Token) (level : Nat) (s : RenderState κ) : Outcome κ Resolution :=
  let frames : Frames := if s.frames.topIs .elseMark level then s.frames.tail else s.frames
  if frames.topIs .ifOpen level then (.ok .ignore, { s with frames := frames.tail })
  else (.error (unmatched token .ifOpen), { s with frames })

/-- Close a `while`, or start it over if its condition still holds. -/
def closeWhile (token : Token) (level : Nat) (s : RenderState κ) : Outcome κ Resolution :=
  match s.frames with
  | [] => (.error (unmatched token .whileOpen), s)
  | frame :: below =>
    match frame.token.directive with
    | .whileOpen condition =>
      if frame.level = level then
        let again :=
          if frame.truthy then host.decide frame.token.id s.vars condition else .ok false
        match again with
        | .ok true => (.ok .again, s)
        | .ok false => (.ok .ignore, { s with frames := below })
        | .error e => (.error e, s)
      else (.error (unmatched token .whileOpen), s)
    | _ => (.error (unmatched token .whileOpen), s)

/-- Close an `each`, or start it over with its next item. A body that was rendered unbinds the name
in the end. -/
def closeEach (token : Token) (level : Nat) (s : RenderState κ) : Outcome κ Resolution :=
  match s.frames with
  | [] => (.error (unmatched token .eachOpen), s)
  | frame :: below =>
    match frame.token.directive with
    | .eachOpen name _ =>
      if frame.level = level then
        if frame.truthy then
          match frame.next? with
          | some (item, frame) =>
            (.ok .again, { s with
              frames := frame :: below
              vars := s.vars.set name (.str item) })
          | none =>
            (.ok .ignore, { s with frames := below, vars := s.vars.remove name })
        else (.ok .ignore, { s with frames := below })
      else (.error (unmatched token .eachOpen), s)
    | _ => (.error (unmatched token .eachOpen), s)

/-- Interpret a token met at a level of nested values; `resume` is the offset behind it. -/
def interpret (token : Token) (level resume : Nat) (s : RenderState κ) : Outcome κ Resolution :=
  let suppressed := s.frames.suppressed
  match token.directive with
  | .empty | .value _ | .expression _ =>
    if suppressed then (.ok .ignore, s)
    else let (resolution, s) := host.write token s; (.ok resolution, s)
  | .define name meaning =>
    if suppressed then (.ok .ignore, s) else host.define token name meaning s
  | .ifOpen condition =>
    if suppressed then push (.skipped token level) s
    else host.openConditional token condition level none s
  | .elseMark => markElse token level s
  | .ifClose => closeIf token level s
  | .whileOpen condition =>
    if suppressed then push (.skipped token level) s
    else host.openConditional token condition level (some resume) s
  | .whileClose => host.closeWhile token level s
  | .eachOpen name text =>
    if suppressed then push (.skipped token level) s
    else host.openEach token name text level resume s
  | .eachClose => closeEach token level s

end Host

end Stencil
