import Stencil.Decimal.Layout
import Stencil.Json

/-! JSON as compact text: no blanks, and the members of an object sorted by name. -/
namespace Stencil.Json

def hexDigit (n : Nat) : Char :=
  (Nat.digitChar n)

/-- A character inside quotes. -/
def escapeChar (c : Char) : List Char :=
  match c with
  | '"' => ['\\', '"']
  | '\\' => ['\\', '\\']
  | '\n' => ['\\', 'n']
  | '\r' => ['\\', 'r']
  | '\t' => ['\\', 't']
  | '\x08' => ['\\', 'b']
  | '\x0c' => ['\\', 'f']
  | c =>
    if c.toNat < 32 then
      ['\\', 'u', '0', '0', hexDigit (c.toNat / 16), hexDigit (c.toNat % 16)]
    else [c]

def quote (s : String) : String :=
  String.ofList ('"' :: (s.toList.flatMap escapeChar ++ ['"']))

def Number.compact : Number → String
  | int n => toString n
  | float x => Decimal.Layout.json.write x

/-- Insert a member in front of the first one with a later name. -/
def insertMember (member : String × String) : List (String × String) → List (String × String)
  | [] => [member]
  | m :: rest => if m.1 ≤ member.1 then m :: insertMember member rest else member :: m :: rest

/-- Printed members, sorted; of a repeated name only the last counts. -/
def sortMembers (members : List (String × String)) : List (String × String) :=
  members.foldl (fun kept member =>
    insertMember member (kept.filter fun k => k.1 != member.1)) []

mutual

/-- A value as compact text. -/
def compact : Json → String
  | null => "null"
  | bool true => "true"
  | bool false => "false"
  | number n => n.compact
  | text s => quote s
  | array items => "[" ++ ",".intercalate (compactItems items) ++ "]"
  | object members =>
    let printed := (sortMembers (compactMembers members)).map fun m => quote m.1 ++ ":" ++ m.2
    "\x7b" ++ ",".intercalate printed ++ "\x7d"
  | unreadable => "null"

def compactItems : List Json → List String
  | [] => []
  | item :: items => item.compact :: compactItems items

def compactMembers : List (String × Json) → List (String × String)
  | [] => []
  | (name, value) :: members => (name, value.compact) :: compactMembers members

end

end Stencil.Json
