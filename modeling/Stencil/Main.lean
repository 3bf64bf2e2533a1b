import Stencil.CommandLine.Run

/-! The program: a command line on the files of the system that it runs on. -/
namespace Stencil.Main

def usage : String := "Render a text template.

Usage: stencil [OPTIONS] [INPUT]

Arguments:
  [INPUT]                   Template file, instead of the standard input

Options:
  -o, --output <FILE>       File to write, instead of the standard output
      --vars <FILE>         JSON object file with variables
      --set <NAME=VALUE>    Set a variable, after --vars; may be repeated
      --config <FILE>       Options file (.json or .toml); the flags below override it
      --delimiters <STYLE>  double-brace, dollar-brace, angle-percent, double-bracket or LEFT,RIGHT
      --ignore-missing      Write nothing for missing values
      --env-fallback        Look up unknown names in the process environment
      --max-depth <N>       How deep values may be nested
      --buffer-size <N>     How many characters are read at a time
  -v, --verbose             Report more; may be repeated
  -h, --help                Print this text
  -V, --version             Print the version
"

def version : String := "stencil 0.1.0\n"

/-- What the system says about a failure. -/
def describe : IO.Error → String
  | .noFileOrDirectory _ code details => s!"{details} (os error {code})"
  | .permissionDenied _ code details => s!"{details} (os error {code})"
  | .inappropriateType _ code details => s!"{details} (os error {code})"
  | .alreadyExists _ code details => s!"{details} (os error {code})"
  | .resourceExhausted _ code details => s!"{details} (os error {code})"
  | .invalidArgument _ code details => s!"{details} (os error {code})"
  | e => toString e

/-- The result of an action, or what the system says about its failure. -/
def described {α : Type} (action : IO α) : IO (Except String α) := do
  try return .ok (← action)
  catch e => return .error (describe e)

def readText (path : String) : IO (Except String String) := do
  match ← described (IO.FS.readBinFile path) with
  | .error message => return .error message
  | .ok bytes =>
    match String.fromUTF8? bytes with
    | some text => return .ok text
    | none => return .error "stream did not contain valid UTF-8"

/-- All bytes of a stream. -/
partial def readStream (stream : IO.FS.Stream) (bytes : ByteArray) : IO ByteArray := do
  let more ← stream.read 65536
  if more.isEmpty then return bytes else readStream stream (bytes ++ more)

/-- The bytes of a file, or of the standard input. -/
def reader (path : Option String) : IO ByteReader := do
  let read := match path with
    | some path => IO.FS.readBinFile path
    | none => do readStream (← IO.getStdin) .empty
  match ← described read with
  | .ok bytes => return { data := bytes.toList }
  | .error message => return { data := [], failure := some message }

def write (path : Option String) (bytes : List UInt8) : IO Unit := do
  let bytes := ByteArray.mk bytes.toArray
  match path with
  | some path => IO.FS.writeBinFile path bytes
  | none => do
    let out ← IO.getStdout
    out.write bytes
    out.flush

instance : Files IO where
  readText := readText
  openInput path := described do
    discard (IO.FS.Handle.mk path .read)
  create path := described (IO.FS.writeBinFile path .empty)
  reader := reader
  write := write

/-- The process environment, where the system shows it. -/
def environment : IO (List (String × String)) := do
  match ← readText "/proc/self/environ" with
  | .error _ => return []
  | .ok text =>
    return (text.splitOn "\x00").filterMap fun entry =>
      match entry.splitOn "=" with
      | name :: value :: more => some (name, "=".intercalate (value :: more))
      | _ => none

/-- More steps than any system lives to see. -/
def steps : Nat := 0x4000000000000000

/-- Carry out a command. The result is the exit code. -/
def carryOut : CommandLine.Command → IO UInt32
  | .help => do
    IO.print usage
    return 0
  | .version => do
    IO.print version
    return 0
  | .render settings => do
    match ← (CommandLine.render steps (← environment) settings).run with
    | .ok () => return 0
    | .error e =>
      IO.eprintln s!"error: {e.message}"
      return 1

end Stencil.Main

/-- Render a template as the arguments ask for. -/
def main (args : List String) : IO UInt32 := do
  match Stencil.CommandLine.read args with
  | .ok command => Stencil.Main.carryOut command
  | .error fault =>
    IO.eprintln s!"error: {fault.message}"
    return 2
