import Stencil.Decimal.Reader

/-! The command line.

Arguments are read from left to right. An option that takes a value takes the rest of its argument,
or else the next argument, unless that looks like an option. Behind two hyphens everything is an
operand. Most options may be given once only. -/
namespace Stencil

namespace CommandLine

/-- What is asked for. -/
structure Settings where
  /-- The file with the template, instead of the standard input. -/
  input : Option String := none
  /-- The file to write, instead of the standard output. -/
  output : Option String := none
  varsFile : Option String := none
  assignments : List String := []
  config : Option String := none
  delimiters : Option String := none
  ignoreMissing : Bool := false
  environmentFallback : Bool := false
  maxDepth : Option Nat := none
  windowSize : Option Nat := none
  verbosity : Nat := 0
  deriving DecidableEq, Repr

/-- What the arguments ask for. -/
inductive Command where
  | render (settings : Settings)
  | help
  | version
  deriving DecidableEq, Repr

/-- What is wrong with the arguments. -/
inductive UsageFault where
  | unknown (option : String)
  | noValue (option : String)
  | unwantedValue (option : String)
  | badValue (option value : String)
  | repeated (option : String)
  /-- One operand too many. -/
  | unexpected (operand : String)
  deriving DecidableEq, Repr

def UsageFault.message : UsageFault → String
  | unknown option => s!"unknown option '{option}'"
  | noValue option => s!"option '{option}' needs a value"
  | unwantedValue option => s!"option '{option}' takes no value"
  | badValue option value => s!"invalid value '{value}' for '{option}'"
  | repeated option => s!"option '{option}' was given twice"
  | unexpected operand => s!"unexpected argument '{operand}'"

/-- The options that stand alone. -/
inductive Switch where
  | ignoreMissing
  | environmentFallback
  | verbose
  | help
  | version
  deriving DecidableEq, Repr

/-- The options that take a value. -/
inductive Parameter where
  | output
  | varsFile
  | assignment
  | config
  | delimiters
  | maxDepth
  | windowSize
  deriving DecidableEq, Repr

inductive Flag where
  | switch (s : Switch)
  | parameter (p : Parameter)
  deriving DecidableEq, Repr

/-- The option with a long name. -/
def Flag.ofName? : String → Option Flag
  | "output" => some (.parameter .output)
  | "vars" => some (.parameter .varsFile)
  | "set" => some (.parameter .assignment)
  | "config" => some (.parameter .config)
  | "delimiters" => some (.parameter .delimiters)
  | "ignore-missing" => some (.switch .ignoreMissing)
  | "env-fallback" => some (.switch .environmentFallback)
  | "max-depth" => some (.parameter .maxDepth)
  | "buffer-size" => some (.parameter .windowSize)
  | "verbose" => some (.switch .verbose)
  | "help" => some (.switch .help)
  | "version" => some (.switch .version)
  | _ => none

/-- The option with a short name. -/
def Flag.ofLetter? : Char → Option Flag
  | 'o' => some (.parameter .output)
  | 'v' => some (.switch .verbose)
  | 'h' => some (.switch .help)
  | 'V' => some (.switch .version)
  | _ => none

/-- A number that fits 64 bits. -/
def count? (text : String) : Option Nat :=
  let digits := match text.toList with
    | '+' :: rest => rest
    | text => text
  let n := Decimal.digitsValue digits
  if digits.isEmpty || !digits.all Char.isDigit || 0x10000000000000000 ≤ n then none else some n

namespace Settings

/-- Fill in something that may be given once. -/
def once {α β : Type} (option : String) (given : Option α) (value : Except UsageFault β) :
    Except UsageFault β :=
  match given with
  | none => value
  | some _ => .error (.repeated option)

def path (option value : String) : Except UsageFault String :=
  if value.isEmpty then .error (.badValue option value) else .ok value

def number (option value : String) : Except UsageFault Nat :=
  match count? value with
  | some n => .ok n
  | none => .error (.badValue option value)

def give (s : Settings) (option value : String) : Parameter → Except UsageFault Settings
  | .output => once option s.output ((path option value).map fun p => { s with output := some p })
  | .varsFile =>
    once option s.varsFile ((path option value).map fun p => { s with varsFile := some p })
  | .assignment => .ok { s with assignments := s.assignments ++ [value] }
  | .config => once option s.config ((path option value).map fun p => { s with config := some p })
  | .delimiters => once option s.delimiters (.ok { s with delimiters := some value })
  | .maxDepth =>
    once option s.maxDepth ((number option value).map fun n => { s with maxDepth := some n })
  | .windowSize =>
    once option s.windowSize ((number option value).map fun n => { s with windowSize := some n })

def operand (s : Settings) (value : String) : Except UsageFault Settings :=
  match s.input with
  | none => (path "INPUT" value).map fun p => { s with input := some p }
  | some _ => .error (.unexpected value)

end Settings

/-- How far the arguments are read. -/
inductive Reading where
  | further (s : Settings)
  /-- An option waits for its value. -/
  | waiting (s : Settings) (option : String) (p : Parameter)
  /-- The rest does not matter. -/
  | settled (c : Command)

def turnOn (s : Settings) (option : String) : Switch → Except UsageFault Reading
  | .ignoreMissing =>
    if s.ignoreMissing then .error (.repeated option)
    else .ok (.further { s with ignoreMissing := true })
  | .environmentFallback =>
    if s.environmentFallback then .error (.repeated option)
    else .ok (.further { s with environmentFallback := true })
  | .verbose => .ok (.further { s with verbosity := s.verbosity + 1 })
  | .help => .ok (.settled .help)
  | .version => .ok (.settled .version)

/-- Read an argument with a long name, from behind its two hyphens. -/
def long (s : Settings) (text : List Char) : Except UsageFault Reading :=
  let name := String.ofList (text.takeWhile (· != '='))
  let option := "--" ++ name
  match Flag.ofName? name, text.dropWhile (· != '=') with
  | none, _ => .error (.unknown option)
  | some (.switch sw), [] => turnOn s option sw
  | some (.switch _), _ :: _ => .error (.unwantedValue option)
  | some (.parameter p), [] => .ok (.waiting s option p)
  | some (.parameter p), _ :: value => (s.give option (String.ofList value) p).map .further

/-- Read an argument with short names, from behind its hyphen. -/
def letters (s : Settings) : List Char → Except UsageFault Reading
  | [] => .ok (.further s)
  | c :: rest =>
    let option := String.ofList ['-', c]
    match Flag.ofLetter? c, rest with
    | none, _ => .error (.unknown option)
    | some (.switch sw), rest => do
      match ← turnOn s option sw with
      | .further s => letters s rest
      | reading => return reading
    | some (.parameter p), [] => .ok (.waiting s option p)
    | some (.parameter p), '=' :: value => (s.give option (String.ofList value) p).map .further
    | some (.parameter p), value => (s.give option (String.ofList value) p).map .further

/-- Read one argument that is not the value of an option. -/
def argument (s : Settings) (text : String) : Except UsageFault Reading :=
  match text.toList with
  | '-' :: '-' :: rest => long s rest
  | '-' :: c :: rest => letters s (c :: rest)
  | _ => (s.operand text).map .further

/-- Whether an argument cannot be the value of an option before it. -/
def looksLikeOption (text : String) : Bool :=
  match text.toList with
  | '-' :: _ :: _ => true
  | _ => false

/-- Read arguments, the first of which may be the value of an option that waits for one. -/
def readAll (reading : Reading) (args : List String) : Except UsageFault Command :=
  match reading, args with
  | .settled c, _ => .ok c
  | .further s, [] => .ok (.render s)
  | .further s, arg :: args =>
    if arg = "--" then do return .render (← args.foldlM Settings.operand s)
    else do readAll (← argument s arg) args
  | .waiting _ option _, [] => .error (.noValue option)
  | .waiting s option p, arg :: args =>
    if looksLikeOption arg then .error (.noValue option)
    else do readAll (.further (← s.give option arg p)) args

/-- What arguments ask for. -/
def read (args : List String) : Except UsageFault Command :=
  readAll (.further {}) args

end CommandLine

end Stencil
