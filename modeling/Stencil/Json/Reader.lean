import Stencil.Json.Number
import Stencil.Text.Utf8

/-! Reading JSON.

A strict reader takes what has a value: numbers in range, whole surrogate pairs, brackets nested no
deeper than `maxDepth`. A tolerant reader takes anything well formed, for texts of which only some
parts are asked for. Which `Fault` a bad text has is decided at the first character that rules every
continuation out. -/
namespace Stencil.Json

/-- What was read from the front of a text, and the shorter text left over. -/
abbrev Reading (α : Type) (text : List Char) :=
  Except Fault { r : α × List Char // r.2.length < text.length }

/-- A reader of values from texts shorter than `bound`. -/
abbrev Inner (bound : Nat) :=
  (text : List Char) → text.length < bound → Reading Json text

/-- How deep the brackets of a strictly read text may nest. -/
def maxDepth : Nat := 127

/-- A blank between two parts of a JSON text. -/
def isSpace (c : Char) : Bool :=
  c = ' ' || c = '\n' || c = '\t' || c = '\r'

/-- The text without its leading blanks. -/
def skipSpaces (text : List Char) : List Char :=
  text.dropWhile isSpace

theorem length_skipSpaces_le (text : List Char) : (skipSpaces text).length ≤ text.length :=
  (List.dropWhile_sublist _).length_le

/-- The text without its leading blanks, known to be no longer. -/
def skip (text : List Char) : { r : List Char // r.length ≤ text.length } :=
  ⟨skipSpaces text, length_skipSpaces_le text⟩

/-- The first character that is no blank, and the text behind it. -/
def front? (text : List Char) : Option (Char × { r : List Char // r.length < text.length }) :=
  match skip text with
  | ⟨[], _⟩ => none
  | ⟨c :: rest, h⟩ => some (c, ⟨rest, h⟩)

def hexValue? (c : Char) : Option Nat :=
  if c.isDigit then some (c.toNat - '0'.toNat)
  else if 'a' ≤ c ∧ c ≤ 'f' then some (c.toNat - 'a'.toNat + 10)
  else if 'A' ≤ c ∧ c ≤ 'F' then some (c.toNat - 'A'.toNat + 10)
  else none

/-- The code unit written by four hexadecimal digits. Four bytes are asked for before they are
looked at. -/
def codeUnit (text : List Char) : Reading Nat text :=
  match text with
  | a :: b :: c :: d :: rest =>
    match hexValue? a, hexValue? b, hexValue? c, hexValue? d with
    | some a, some b, some c, some d =>
      .ok ⟨(((a * 16 + b) * 16 + c) * 16 + d, rest), by simp; omega⟩
    | _, _, _, _ => .error .malformed
  | text => .error (if Text.utf8Length text < 4 then .ended else .malformed)

def ofSurrogates (high low : Nat) : Char :=
  Char.ofNat (0x10000 + (high - 0xD800) * 0x400 + (low - 0xDC00))

/-- The character written by code units, after the first `u`; none, if a tolerant reader met half a
surrogate pair. -/
def escapedUnit (tolerant : Bool) (text : List Char) : Reading (Option Char) text := do
  let ⟨(high, rest), h⟩ ← codeUnit text
  if high < 0xD800 || 0xE000 ≤ high then return ⟨(some (Char.ofNat high), rest), h⟩
  else if tolerant then return ⟨(none, rest), h⟩
  else if 0xDC00 ≤ high then .error .malformed
  else
    match rest, h with
    | '\\' :: 'u' :: rest', h =>
      let ⟨(low, rest''), h'⟩ ← codeUnit rest'
      if 0xDC00 ≤ low ∧ low < 0xE000 then
        return ⟨(some (ofSurrogates high low), rest''), by simp at *; omega⟩
      else .error .malformed
    | [], _ => .error .ended
    | ['\\'], _ => .error .ended
    | _, _ => .error .malformed

/-- The character that a backslash and one more character write. -/
def escapedChar? : Char → Option Char
  | '"' => some '"'
  | '\\' => some '\\'
  | '/' => some '/'
  | 'b' => some '\x08'
  | 'f' => some '\x0c'
  | 'n' => some '\n'
  | 'r' => some '\r'
  | 't' => some '\t'
  | _ => none

/-- Add a character, or its absence, in front of a text. -/
def consChar (c : Option Char) (s : Option (List Char)) : Option (List Char) := do
  return (← c) :: (← s)

/-- A quoted text after its opening quote; none, if it stands for no text. -/
def quoted (tolerant : Bool) (text : List Char) : Reading (Option (List Char)) text :=
  match text with
  | [] => .error .ended
  | '"' :: rest => .ok ⟨(some [], rest), by simp⟩
  | ['\\'] => .error .ended
  | '\\' :: 'u' :: rest => do
    let ⟨(c, rest'), h⟩ ← escapedUnit tolerant rest
    let ⟨(s, rest''), h'⟩ ← quoted tolerant rest'
    return ⟨(consChar c s, rest''), by simp at *; omega⟩
  | '\\' :: e :: rest =>
    match escapedChar? e with
    | some c => do
      let ⟨(s, rest'), h⟩ ← quoted tolerant rest
      return ⟨(consChar (some c) s, rest'), by simp at *; omega⟩
    | none => .error .malformed
  | c :: rest =>
    if c.toNat < 32 then .error .malformed
    else do
      let ⟨(s, rest'), h⟩ ← quoted tolerant rest
      return ⟨(consChar (some c) s, rest'), by simp at *; omega⟩
termination_by text.length
decreasing_by all_goals (simp only [List.length_cons] at *; omega)

/-- A certain word. -/
def keyword : List Char → (text : List Char) →
    Except Fault { r : List Char // r.length ≤ text.length }
  | [], rest => .ok ⟨rest, Nat.le_refl _⟩
  | _ :: _, [] => .error .ended
  | k :: word, c :: rest =>
    if c = k then (keyword word rest).map fun r => ⟨r.1, Nat.le_succ_of_le r.2⟩
    else .error .malformed

section
variable {bound : Nat} (inner : Inner bound)

/-- The items of a list from its first item on. -/
def items (text : List Char) (h : text.length < bound) : Reading (List Json) text := do
  let ⟨(item, rest), hi⟩ ← inner text h
  match front? rest with
  | none => .error .ended
  | some (c, ⟨rest', hs⟩) =>
    if c = ']' then return ⟨([item], rest'), Nat.lt_trans hs hi⟩
    else if c = ',' then
      match skip rest' with
      | ⟨[], _⟩ => .error .ended
      | ⟨d :: more, hm⟩ =>
        if d = ']' then .error .malformed
        else do
          have hlt : (d :: more).length < text.length := Nat.lt_of_le_of_lt hm (Nat.lt_trans hs hi)
          let ⟨(items, rest''), hr⟩ ← items (d :: more) (Nat.lt_trans hlt h)
          return ⟨(item :: items, rest''), Nat.lt_trans hr hlt⟩
    else .error .malformed
termination_by text.length
decreasing_by exact hlt

/-- The value of a member, from the colon in front of it on. -/
def memberValue (text : List Char) (h : text.length ≤ bound) : Reading Json text :=
  match front? text with
  | none => .error .ended
  | some (c, ⟨rest, hs⟩) =>
    if c = ':' then do
      let ⟨r, hr⟩ ← inner rest (Nat.lt_of_lt_of_le hs h)
      return ⟨r, Nat.lt_trans hr hs⟩
    else .error .malformed

/-- Add a member in front of others, if its name is readable. -/
def consMember (name : Option (List Char)) (value : Json)
    (members : Option (List (String × Json))) : Option (List (String × Json)) := do
  return (String.ofList (← name), value) :: (← members)

/-- The members of an object from the opening quote of its first name on; none, if one of their
names stands for no text. -/
def members (tolerant : Bool) (text : List Char) (h : text.length ≤ bound) :
    Reading (Option (List (String × Json))) text :=
  match text, h with
  | [], _ => .error .ended
  | q :: rest, h =>
    if q = '"' then do
      let ⟨(name, rest'), hn⟩ ← quoted tolerant rest
      let ⟨(value, rest''), hv⟩ ← memberValue inner rest' (Nat.le_of_lt (Nat.lt_trans hn h))
      match front? rest'' with
      | none => .error .ended
      | some (c, ⟨more, hm⟩) =>
        have hlt : more.length < rest.length := Nat.lt_trans hm (Nat.lt_trans hv hn)
        if c = '}' then
          return ⟨(consMember name value (some []), more), Nat.lt_succ_of_lt hlt⟩
        else if c = ',' then do
          have hs := length_skipSpaces_le more
          let ⟨(ms, rest), hr⟩ ← members tolerant (skipSpaces more)
            (Nat.le_of_lt (Nat.lt_of_le_of_lt hs (Nat.lt_trans hlt h)))
          return ⟨(consMember name value ms, rest),
            Nat.lt_succ_of_lt (Nat.lt_trans (Nat.lt_of_lt_of_le hr hs) hlt)⟩
        else .error .malformed
    else .error .malformed
termination_by text.length
decreasing_by exact Nat.lt_succ_of_lt (Nat.lt_of_le_of_lt hs hlt)

/-- The rest of a list after its opening bracket. -/
def arrayBody (text : List Char) (h : text.length < bound) : Reading Json text :=
  match skip text with
  | ⟨[], _⟩ => .error .ended
  | ⟨c :: rest, hs⟩ =>
    if c = ']' then .ok ⟨(.array [], rest), hs⟩
    else do
      let ⟨(items, rest'), h'⟩ ← items inner (c :: rest) (Nat.lt_of_le_of_lt hs h)
      return ⟨(.array items, rest'), Nat.lt_of_lt_of_le h' hs⟩

def ofMembers : Option (List (String × Json)) → Json
  | some members => .object members
  | none => .unreadable

/-- The rest of an object after its opening brace. -/
def objectBody (tolerant : Bool) (text : List Char) (h : text.length < bound) :
    Reading Json text :=
  match skip text with
  | ⟨[], _⟩ => .error .ended
  | ⟨c :: rest, hs⟩ =>
    if c = '}' then .ok ⟨(.object [], rest), hs⟩
    else do
      let ⟨(ms, rest'), h'⟩ ←
        members inner tolerant (c :: rest) (Nat.le_of_lt (Nat.lt_of_le_of_lt hs h))
      return ⟨(ofMembers ms, rest'), Nat.lt_of_lt_of_le h' hs⟩

end

def ofQuoted : Option (List Char) → Json
  | some s => .text (String.ofList s)
  | none => .unreadable

/-- What a number reader leaves over, checked to be shorter. -/
def shorter {α : Type} (text : List Char) (result : Number.Read α) : Reading α text :=
  match result with
  | .error fault => .error fault
  | .ok (value, rest) =>
    if h : rest.length < text.length then .ok ⟨(value, rest), h⟩ else .error .malformed

/-- A value with blanks in front of it. Strict reading goes `depth` brackets deep. -/
def value (tolerant : Bool) (depth : Nat) (text : List Char) : Reading Json text :=
  match skip text with
  | ⟨[], _⟩ => .error .ended
  | ⟨'n' :: rest, hs⟩ => do
    let ⟨rest', h⟩ ← keyword ['u', 'l', 'l'] rest
    return ⟨(.null, rest'), by simp at *; omega⟩
  | ⟨'t' :: rest, hs⟩ => do
    let ⟨rest', h⟩ ← keyword ['r', 'u', 'e'] rest
    return ⟨(.bool true, rest'), by simp at *; omega⟩
  | ⟨'f' :: rest, hs⟩ => do
    let ⟨rest', h⟩ ← keyword ['a', 'l', 's', 'e'] rest
    return ⟨(.bool false, rest'), by simp at *; omega⟩
  | ⟨'"' :: rest, hs⟩ => do
    let ⟨(s, rest'), h⟩ ← quoted tolerant rest
    return ⟨(ofQuoted s, rest'), by simp at *; omega⟩
  | ⟨'-' :: rest, hs⟩ => do
    let ⟨(json, rest'), h⟩ ← shorter rest (Number.read tolerant true rest)
    return ⟨(json, rest'), by simp at *; omega⟩
  | ⟨'[' :: rest, hs⟩ =>
    if !tolerant && depth = 0 then .error .malformed
    else do
      let inner : Inner (rest.length + 1) := fun t _ => value tolerant (depth - 1) t
      let ⟨(json, rest'), h⟩ ← arrayBody inner rest (by omega)
      return ⟨(json, rest'), by simp at *; omega⟩
  | ⟨'{' :: rest, hs⟩ =>
    if !tolerant && depth = 0 then .error .malformed
    else do
      let inner : Inner (rest.length + 1) := fun t _ => value tolerant (depth - 1) t
      let ⟨(json, rest'), h⟩ ← objectBody inner tolerant rest (by omega)
      return ⟨(json, rest'), by simp at *; omega⟩
  | ⟨c :: rest, hs⟩ =>
    if c.isDigit then do
      let ⟨(json, rest'), h⟩ ← shorter (c :: rest) (Number.read tolerant false (c :: rest))
      return ⟨(json, rest'), by simp at *; omega⟩
    else .error .malformed
termination_by text.length
decreasing_by all_goals (simp only [List.length_cons] at *; omega)

/-- A whole text that holds one value. -/
def read (tolerant : Bool) (text : String) : Except Fault Json := do
  let ⟨(json, rest), _⟩ ← value tolerant maxDepth text.toList
  if (skipSpaces rest).isEmpty then return json else .error .malformed

/-- A whole text that holds one object. Any other value is of the wrong shape, whatever comes after
it; a list is so from its bracket on. -/
def readObject (text : String) : Except Fault (List (String × Json)) := do
  if (skipSpaces text.toList).head? = some '[' then .error .mistyped
  else
    let ⟨(json, rest), _⟩ ← value false maxDepth text.toList
    match json with
    | .object members =>
      if (skipSpaces rest).isEmpty then return members else .error .malformed
    | _ => .error .mistyped

end Stencil.Json
