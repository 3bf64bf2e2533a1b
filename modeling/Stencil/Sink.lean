import Stencil.Error
import Stencil.Text.Utf8

/-! A sink for text. It may have room for so many bytes only; then it takes as much of a text as fits,
even the first bytes of a character, and refuses the rest. -/
namespace Stencil

/-- A sink and what was written to it. -/
structure Sink where
  text : String := ""
  /-- The bytes behind them, of a character that did not fit. -/
  torn : List UInt8 := []
  /-- How many more bytes fit, if there is a limit. -/
  room : Option Nat := none
  /-- How the sink refuses what does not fit. -/
  refusal : String := ""

namespace Sink

/-- Everything that was written, in bytes. -/
def bytes (sink : Sink) : List UInt8 :=
  Text.utf8Bytes sink.text.toList ++ sink.torn

/-- The characters at the front of a text that fit into so many bytes, and the characters behind
them. -/
def fitting (room : Nat) : List Char → List Char × List Char
  | [] => ([], [])
  | c :: rest =>
    if c.utf8Size ≤ room then
      let (fit, excess) := fitting (room - c.utf8Size) rest
      (c :: fit, excess)
    else ([], c :: rest)

/-- Write to a sink with room for `room` bytes, which the text does not fit into. -/
def overflow (sink : Sink) (room : Nat) (text : List Char) : Sink :=
  let (fit, excess) := fitting room text
  let left := room - Text.utf8Length fit
  { sink with
    text := sink.text ++ String.ofList fit
    torn := (Text.utf8Bytes excess).take left
    room := some 0 }

def write (sink : Sink) (text : List Char) : Except RenderError Unit × Sink :=
  match sink.room with
  | none => (.ok (), { sink with text := sink.text ++ String.ofList text })
  | some room =>
    let size := Text.utf8Length text
    if size ≤ room then
      (.ok (), { sink with text := sink.text ++ String.ofList text, room := some (room - size) })
    else (.error (.io sink.refusal), sink.overflow room text)

/-- A sink without a limit takes everything. -/
theorem write_of_room_eq_none {sink : Sink} (h : sink.room = none) (text : List Char) :
    sink.write text = (.ok (), { sink with text := sink.text ++ String.ofList text }) := by
  simp [write, h]

/-- A sink without a limit stays one. -/
theorem room_write_eq_none {sink : Sink} (h : sink.room = none) (text : List Char) :
    (sink.write text).2.room = none := by
  rw [write_of_room_eq_none h]
  exact h

end Sink

end Stencil
