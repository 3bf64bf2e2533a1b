import Stencil.Json

/-! The tables of a TOML document while it is read, line by line.

A table may be given a header once. A dotted key makes tables of its own, which later dotted keys of
the same table may add to, and nothing else may. No name is given a value twice. -/
namespace Stencil.Toml

/-- How a table came about. -/
inductive Origin where
  | header
  /-- A table in it has a header. -/
  | implied
  /-- A dotted key leads through it. -/
  | dotted
  deriving DecidableEq, Repr

/-- What a name stands for. -/
inductive Node where
  /-- A value, to which nothing can be added. -/
  | value (json : Json)
  | table (origin : Origin) (members : List (String × Node))
  /-- A list of tables that have a header each: the last, and those before it. -/
  | tables (last : List (String × Node)) (earlier : List Json)

abbrev Members := List (String × Node)

mutual

/-- The value that a name stands for in the end. -/
def Node.toJson : Node → Json
  | .value json => json
  | .table _ members => .object (membersToJson members)
  | .tables last earlier => .array (earlier ++ [.object (membersToJson last)])

def membersToJson : List (String × Node) → List (String × Json)
  | [] => []
  | (name, node) :: members => (name, node.toJson) :: membersToJson members

end

namespace Members

/-- Give a value to a dotted name. `free` says whether a value may be put into this very table: not,
if it is another than the one that is being written and has a header or is implied by one. -/
def insert (free : Bool) (path : List String) (json : Json) (members : Members) :
    Option Members :=
  match path with
  | [] => none
  | [name] =>
    if free && (members.lookup name).isNone then some (members ++ [(name, .value json)]) else none
  | name :: path =>
    match members.lookup name with
    | none => (insert true path json []).map fun inner => members ++ [(name, .table .dotted inner)]
    | some (.table .header _) => none
    | some (.table origin inner) =>
      (insert (origin = .dotted) path json inner).map fun inner =>
        Bindings.put name (.table origin inner) members
    | some (.tables last earlier) =>
      (insert false path json last).map fun last => Bindings.put name (.tables last earlier) members
    | some (.value _) => none

/-- Change the table that a path of headers leads to. -/
def within (path : List String) (change : Members → Option Members) (members : Members) :
    Option Members :=
  match path with
  | [] => change members
  | name :: path =>
    match members.lookup name with
    | none => (within path change []).map fun inner => members ++ [(name, .table .implied inner)]
    | some (.table origin inner) =>
      (within path change inner).map fun inner => Bindings.put name (.table origin inner) members
    | some (.tables last earlier) =>
      (within path change last).map fun last => Bindings.put name (.tables last earlier) members
    | some (.value _) => none

/-- Begin the table of that name. -/
def openTable (name : String) (members : Members) : Option Members :=
  match members.lookup name with
  | none => some (members ++ [(name, .table .header [])])
  | some (.table .implied inner) => some (Bindings.put name (.table .header inner) members)
  | _ => none

/-- Begin the next table in the list of that name. -/
def openItem (name : String) (members : Members) : Option Members :=
  match members.lookup name with
  | none => some (members ++ [(name, .tables [] [])])
  | some (.tables last earlier) =>
    some (Bindings.put name (.tables [] (earlier ++ [.object (membersToJson last)])) members)
  | _ => none

end Members

/-- A document, as far as it was read. -/
structure Document where
  /-- The table that holds all others. -/
  root : Members := []
  /-- The path to the table that lines add to. -/
  current : List String := []

namespace Document

/-- Give a value to a dotted name in the current table. -/
def insert (document : Document) (path : List String) (json : Json) : Option Document :=
  (Members.within document.current (Members.insert true path json) document.root).map fun root =>
    { document with root }

/-- Begin a table or, as `item` says, the next table in a list. -/
def open? (document : Document) (path : List String) (item : Bool) : Option Document := do
  let name ← path.getLast?
  let change := if item then Members.openItem name else Members.openTable name
  let root ← Members.within path.dropLast change document.root
  return { root, current := path }

def toJson (document : Document) : Json :=
  .object (membersToJson document.root)

end Document

end Stencil.Toml
