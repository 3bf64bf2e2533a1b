import Stencil.CommandLine
import Stencil.Options.Json
import Stencil.Options.Toml
import Stencil.Renderer
import Stencil.Text.Blank
import Stencil.Value.Json

/-! Carrying out a command, on any system with files. -/
namespace Stencil

/-- What a system with files can do. Failures are reported in its own words. -/
class Files (m : Type → Type) where
  readText : (path : String) → m (Except String String)
  /-- See that a file can be read. -/
  openInput : (path : String) → m (Except String Unit)
  create : (path : String) → m (Except String Unit)
  /-- The bytes of a file, or of the standard input. -/
  reader : (path : Option String) → m ByteReader
  write : (path : Option String) → List UInt8 → m Unit

namespace CommandLine

def fileName (path : List Char) : List Char :=
  (path.reverse.takeWhile (· != '/')).reverse

/-- What stands behind the last point of a file name, unless the name begins with that point. -/
def extension? (path : String) : Option String :=
  let name := (fileName path.toList).reverse
  match name.takeWhile (· != '.'), name.dropWhile (· != '.') with
  | extension, '.' :: _ :: _ => some (String.ofList extension.reverse)
  | _, _ => none

/-- The options in the text of a file; the end of its name says in which format. -/
def readOptions (path text : String) : Except SettingsFault Options :=
  match extension? path with
  | some "toml" => Options.readToml text
  | some "json" => Options.readJson text
  | _ => .error (.unknownFormat path)

/-- Options with the settings applied that override them. -/
def Settings.override (s : Settings) (options : Options) : Except SettingsFault Options := do
  let delimiters ← match s.delimiters with
    | some spec => DelimiterStyle.ofSpec spec
    | none => pure options.delimiters
  let options : Options :=
    { delimiters
      missing := if s.ignoreMissing then .ignore else options.missing
      environmentFallback := s.environmentFallback || options.environmentFallback
      maxDepth := s.maxDepth.getD options.maxDepth
      windowSize := s.windowSize.getD options.windowSize }
  options.validate
  return options

/-- Add the variable of an assignment. -/
def assign (vars : Variables) (text : String) : Except SettingsFault Variables :=
  let name := text.toList.takeWhile (· != '=')
  match text.toList.dropWhile (· != '=') with
  | [] => .error (.noAssignment text)
  | _ :: value => .ok (vars.set (String.ofList (Text.trim name)) (.str (String.ofList value)))

def readVariables (path text : String) : Except SettingsFault Variables :=
  match Variables.ofJson text with
  | .ok vars => .ok vars
  | .error _ => .error (.badVariables path)

/-- Something that is done on a system and may fail. -/
abbrev Task (m : Type → Type) := ExceptT RenderError m

section
variable {m : Type → Type} [Monad m] [Files m]

/-- Do what may fail in the words of the system. -/
def attempt {α : Type} (action : m (Except String α)) : Task m α :=
  ExceptT.mk do
    match ← action with
    | .ok a => return .ok a
    | .error message => return .error (.io message)

def check {α : Type} (result : Except SettingsFault α) : Task m α :=
  match result with
  | .ok a => pure a
  | .error fault => throw (.settings fault)

/-- Read a file, if one is asked for. -/
def readFile {α : Type} (path : Option String) (read : String → String → Except SettingsFault α)
    (otherwise : α) : Task m α :=
  match path with
  | none => pure otherwise
  | some path => do
    let text ← attempt (Files.readText path)
    check (read path text)

/-- The options and the variables that settings ask for. -/
def prepare (s : Settings) : Task m (Options × Variables) := do
  let options ← readFile s.config readOptions {}
  let options ← check (s.override options)
  let vars ← readFile s.varsFile readVariables {}
  let vars ← check (s.assignments.foldlM assign vars)
  return (options, vars)

def attemptPath (path : Option String) (action : String → m (Except String Unit)) : Task m Unit :=
  match path with
  | none => pure ()
  | some path => attempt (action path)

/-- Render as settings ask for, within a number of steps. What was written before a failure stays
written. -/
def render (steps : Nat) (environment : List (String × String)) (s : Settings) : Task m Unit := do
  let (options, vars) ← prepare s
  let renderer ← check (Renderer.ofHost { options, environment } : Except _ (Renderer Unit))
  attemptPath s.input Files.openInput
  attemptPath s.output Files.create
  let reader ← (Files.reader s.input : m ByteReader)
  match renderer.renderReader steps reader vars () { maxIdle := 32 } {} with
  | none => throw (.io "the template does not come to an end")
  | some rendered =>
    (Files.write s.output rendered.sink.bytes : m Unit)
    match rendered.result with
    | .ok () => pure ()
    | .error e => throw e

end

end CommandLine

end Stencil
