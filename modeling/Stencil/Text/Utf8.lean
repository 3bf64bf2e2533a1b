/-! Texts and bytes: UTF-8 written and read.

A byte sequence is read one character at a time. What stands at its front is a character, the
beginning of one that may still be completed, or something that no continuation can make valid; the
three cases are told apart as early as the encoding allows. -/
namespace Stencil.Text

/-- How many bytes a text takes in UTF-8. -/
def utf8Length : List Char → Nat
  | [] => 0
  | c :: rest => c.utf8Size + utf8Length rest

def utf8Bytes (text : List Char) : List UInt8 :=
  text.flatMap fun c => String.utf8EncodeChar c

/-- What stands at the front of some bytes. -/
inductive Utf8Front where
  /-- Nothing at all, or a character that is not complete. -/
  | incomplete
  /-- No character, whatever follows. -/
  | invalid
  /-- A character and the bytes after it. -/
  | char (c : Char) (rest : List UInt8)

/-- The least and the greatest second byte of a character with that first byte, and how many bytes
follow the first; none, if no character begins so. -/
def secondByte? (first : Nat) : Option (Nat × Nat × Nat) :=
  if 0xC2 ≤ first ∧ first ≤ 0xDF then some (0x80, 0xBF, 1)
  else if first = 0xE0 then some (0xA0, 0xBF, 2)
  else if first = 0xED then some (0x80, 0x9F, 2)
  else if 0xE1 ≤ first ∧ first ≤ 0xEF then some (0x80, 0xBF, 2)
  else if first = 0xF0 then some (0x90, 0xBF, 3)
  else if first = 0xF4 then some (0x80, 0x8F, 3)
  else if 0xF1 ≤ first ∧ first ≤ 0xF3 then some (0x80, 0xBF, 3)
  else none

/-- `count` more bytes of a character, the first of them between `low` and `high`, appended to the
bits read so far. -/
def utf8Tail (bits low high : Nat) : Nat → List UInt8 → Utf8Front
  | 0, rest => .char (Char.ofNat bits) rest
  | _ + 1, [] => .incomplete
  | count + 1, byte :: rest =>
    if low ≤ byte.toNat ∧ byte.toNat ≤ high then
      utf8Tail (bits * 64 + byte.toNat % 64) 0x80 0xBF count rest
    else .invalid

/-- What stands at the front of some bytes. -/
def utf8Front : List UInt8 → Utf8Front
  | [] => .incomplete
  | byte :: rest =>
    let first := byte.toNat
    if first < 0x80 then .char (Char.ofNat first) rest
    else
      match secondByte? first with
      | none => .invalid
      | some (low, high, count) =>
        utf8Tail (first % (64 >>> count)) low high count rest

theorem length_of_utf8Tail {c : Char} {rest' : List UInt8} (count bits low high : Nat)
    (rest : List UInt8) (h : utf8Tail bits low high count rest = .char c rest') :
    rest'.length ≤ rest.length := by
  induction count generalizing bits low high rest with
  | zero => simp only [utf8Tail, Utf8Front.char.injEq] at h; simp [h.2]
  | succ count ih =>
    cases rest with
    | nil => simp [utf8Tail] at h
    | cons byte rest =>
      simp only [utf8Tail] at h
      split at h
      · exact Nat.le_succ_of_le (ih _ _ _ _ h)
      · simp at h

/-- A character takes at least one byte. -/
theorem length_of_utf8Front {bytes rest : List UInt8} {c : Char}
    (h : utf8Front bytes = .char c rest) : rest.length < bytes.length := by
  cases bytes with
  | nil => simp [utf8Front] at h
  | cons byte tail =>
    simp only [utf8Front] at h
    split at h
    · simp only [Utf8Front.char.injEq] at h; simp [h.2]
    · split at h
      · simp at h
      · exact Nat.lt_succ_of_le (length_of_utf8Tail _ _ _ _ _ h)

/-- The text of some bytes; none, if they are not the UTF-8 of a text. -/
def ofUtf8? (bytes : List UInt8) : Option (List Char) :=
  match bytes with
  | [] => some []
  | byte :: more =>
    match _h : utf8Front (byte :: more) with
    | .char c rest => (ofUtf8? rest).map (c :: ·)
    | _ => none
termination_by bytes.length
decreasing_by exact length_of_utf8Front ‹_›

end Stencil.Text
