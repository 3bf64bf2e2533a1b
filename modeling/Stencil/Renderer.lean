import Stencil.Render.Progress
import Stencil.Source.Utf8

/-! Renderers: rendering a whole template under options that were checked.

A template need not come to an end, because a loop in it may not. So a rendering is given a number
of steps, and yields nothing if that is not enough; one that comes to an end within some number of
steps does the same within any larger number. -/
namespace Stencil

namespace Rendering
variable {κ σ : Type}

def start (window : Window σ) (level : Nat) (state : RenderState κ) (pool : Pool)
    (sink : Sink) : Rendering κ σ :=
  { passage := { level, window, opened := state.frames.length }, state, pool, sink }

/-- The pool after all buffers were given back. -/
def released (r : Rendering κ σ) : Pool :=
  (r.outermost.window.release r.pool).2

end Rendering

/-- What a rendering leaves behind. -/
structure Rendered (κ : Type) where
  /-- Why it failed, if it did. -/
  result : Except RenderError Unit
  sink : Sink
  vars : Variables
  memory : κ
  /-- The pool, with all buffers given back. -/
  pool : Pool

namespace Rendered
variable {κ σ : Type}

/-- What a rendering leaves behind that ends with a certain result. -/
def of (result : Except RenderError Unit) (r : Rendering κ σ) : Rendered κ :=
  { result
    sink := r.sink
    vars := r.state.vars
    memory := r.state.memory
    pool := r.released }

/-- What a rendering leaves behind; nothing, as long as it has not ended. -/
def ofProgress? : Progress κ σ → Option (Rendered κ)
  | .running _ => none
  | .finished r => some (of (.ok ()) r)
  | .failed e r => some (of (.error e) r)

/-- The text that was written, or why the rendering failed. -/
def text (rendered : Rendered κ) : Except RenderError String :=
  rendered.result.map fun _ => rendered.sink.text

end Rendered

/-- What a rendering depends on, with options that something can be rendered with. -/
structure Renderer (κ : Type) where
  host : Host κ
  valid : host.options.validate = .ok ()

namespace Renderer
variable {κ : Type}

def ofHost (host : Host κ) : Except SettingsFault (Renderer κ) :=
  match h : host.options.validate with
  | .ok () => .ok ⟨host, h⟩
  | .error fault => .error fault

/-- Render what a window shows into a sink. -/
def render {σ : Type} [CharSource σ] (renderer : Renderer κ) (steps : Nat) (window : Window σ)
    (vars : Variables) (memory : κ) (pool : Pool) (sink : Sink) : Option (Rendered κ) :=
  let rendering := Rendering.start window 0 { vars, memory } pool sink
  Rendered.ofProgress? (rendering.run renderer.host steps)

def renderText (renderer : Renderer κ) (steps : Nat) (template : String)
    (vars : Variables) (memory : κ) (pool : Pool) : Option (Rendered κ) :=
  renderer.render steps (.fixed template.toList : Window TextSource) vars memory pool {}

/-- Render the text of a reader, without all of it being at hand at once. -/
def renderReader (renderer : Renderer κ) (steps : Nat) (reader : ByteReader)
    (vars : Variables) (memory : κ) (pool : Pool) (sink : Sink) : Option (Rendered κ) :=
  let source : Utf8Source := { reader }
  renderer.render steps (.streaming source renderer.host.options.windowSize) vars memory pool
    sink

end Renderer

end Stencil
