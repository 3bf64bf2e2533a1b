import Stencil.Token

/-! Frames: the blocks that are open while a template is rendered, innermost first. -/
namespace Stencil

/-- An open block, or the part of an `if` behind its `else`. -/
structure Frame where
  token : Token
  /-- Whether its body is rendered. -/
  truthy : Bool
  /-- Whether what is around it was being rendered when it was opened. -/
  live : Bool
  /-- How deep in nested values it was opened. -/
  level : Nat
  /-- For a loop, the offset behind the opening token. -/
  resume : Option Nat := none
  /-- For an `each`, the items that are still to come. -/
  items : Option (List String) := none
  deriving DecidableEq, Repr

namespace Frame

def kind (frame : Frame) : Token.Kind :=
  frame.token.kind

/-- A block in a part that is not rendered. -/
def skipped (token : Token) (level : Nat) : Frame :=
  { token, truthy := false, live := false, level }

/-- The next item of an `each`, and the frame without it. -/
def next? (frame : Frame) : Option (String × Frame) :=
  match frame.items with
  | some (item :: items) => some (item, { frame with items := some items })
  | _ => none

end Frame

/-- The open blocks, innermost first. -/
abbrev Frames := List Frame

namespace Frames

/-- Whether output is withheld. The innermost block decides, because a block inside a part that is
not rendered is never truthy. -/
def suppressed (frames : Frames) : Bool :=
  match frames with
  | [] => false
  | frame :: _ => !frame.truthy

/-- Whether the innermost block is of a kind and was opened at a level. -/
def topIs (frames : Frames) (kind : Token.Kind) (level : Nat) : Bool :=
  match frames with
  | [] => false
  | frame :: _ => frame.kind = kind && frame.level = level

end Frames

end Stencil
