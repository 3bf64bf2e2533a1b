import Stencil.Source
import Stencil.Source.Bytes
import Stencil.Text.Utf8

/-! The characters of a reader of bytes, decoded as they come in. Bytes of a character that is not
complete wait for the next read; what is no UTF-8 is an error once all characters in front of it are
handed out, and stays one. -/
namespace Stencil

/-- A reader of bytes as a source of characters. -/
structure Utf8Source where
  reader : ByteReader
  /-- Bytes that were read and not decoded yet. -/
  pending : List UInt8 := []
  /-- Whether the reader has reported the end. -/
  ended : Bool := false

namespace Utf8Source

def pieceSize : Nat := 4096

/-- The failure of a source that holds no UTF-8. -/
def notUtf8 : String := "template source is not valid UTF-8"

/-- The failure of a source that ends within a character. -/
def endsInside : String := "template source ends inside a UTF-8 sequence"

/-- At most `limit` characters from the front of some bytes, and the bytes after them. -/
def decode : (limit : Nat) → List UInt8 → List Char × List UInt8
  | 0, bytes => ([], bytes)
  | limit + 1, bytes =>
    match Text.utf8Front bytes with
    | .char c rest =>
      let (cs, rest) := decode limit rest
      (c :: cs, rest)
    | _ => ([], bytes)

theorem length_decode (limit : Nat) (bytes : List UInt8) :
    (decode limit bytes).1.length + (decode limit bytes).2.length ≤ bytes.length := by
  induction limit generalizing bytes with
  | zero => simp [decode]
  | succ limit ih =>
    unfold decode
    split
    · next c rest h =>
      have := Text.length_of_utf8Front h
      have := ih rest
      simp only [List.length_cons]
      omega
    · simp

theorem length_decode_fst_le (limit : Nat) (bytes : List UInt8) :
    (decode limit bytes).1.length ≤ limit := by
  induction limit generalizing bytes with
  | zero => simp [decode]
  | succ limit ih =>
    unfold decode
    split
    · next c rest h => have := ih rest; simpa using this
    · simp

/-- What is left to happen before the reader has nothing new to say. -/
def unsettled (source : Utf8Source) : Nat :=
  source.reader.bound + if source.ended then 0 else 1

/-- Decode characters, reading on as long as there is none. -/
def pull (limit : Nat) (source : Utf8Source) : Except String (List Char) × Utf8Source :=
  match decode limit source.pending with
  | (c :: cs, rest) => (.ok (c :: cs), { source with pending := rest })
  | ([], _) =>
    match Text.utf8Front source.pending with
    | .invalid => (.error notUtf8, source)
    | _ =>
      if source.ended then
        (if source.pending.isEmpty then .ok [] else .error endsInside, source)
      else
        match _h : source.reader.read pieceSize with
        | (.failed message, reader) => (.error message, { source with reader })
        | (.interrupted, reader) => pull limit { source with reader }
        | (.bytes [], reader) => pull limit { source with reader, ended := true }
        | (.bytes (b :: bs), reader) =>
          pull limit { source with reader, pending := source.pending ++ b :: bs }
termination_by unsettled source
decreasing_by
  · have := ByteReader.bound_of_interrupted ‹_›
    simp only [unsettled]
    omega
  · have := ByteReader.bound_of_bytes ‹_›
    have hn : source.ended = false := by simpa using ‹¬source.ended = true›
    simp only [unsettled, hn, Bool.false_eq_true, if_true, if_false, List.length_nil] at this ⊢
    omega
  · have := ByteReader.bound_of_bytes ‹_›
    simp only [unsettled, List.length_cons] at this ⊢
    omega

/-- At most `limit` characters. -/
def read (source : Utf8Source) (limit : Nat) : Except String (List Char) × Utf8Source :=
  if limit = 0 then (.ok [], source) else source.pull limit

/-- A bound on the number of characters still to come: each takes a byte. -/
def bound (source : Utf8Source) : Nat :=
  source.pending.length + source.reader.data.length

/-- What a read gives is bounded by what it is asked for, and taken off the bound. -/
theorem pull_le (limit : Nat) (source : Utf8Source) :
    (∀ cs, (source.pull limit).1 = .ok cs →
      cs.length ≤ limit ∧ cs.length + (source.pull limit).2.bound ≤ source.bound) ∧
    (source.pull limit).2.bound ≤ source.bound := by
  fun_induction pull limit source with
  | case1 source c cs rest h =>
    have h₁ := length_decode limit source.pending
    have h₂ := length_decode_fst_le limit source.pending
    rw [h] at h₁ h₂
    simp only [bound] at *
    refine ⟨fun cs' he => ?_, by omega⟩
    cases he
    exact ⟨h₂, by omega⟩
  | case2 => simp
  | case3 source => split <;> simp
  | case4 source _ _ _ message reader h =>
    have hd := ByteReader.data_of_read h
    simp only [ByteRead.given, List.nil_append] at hd
    simp [bound, hd]
  | case5 source _ _ _ reader h _ ih =>
    have hd := ByteReader.data_of_read h
    simp only [ByteRead.given, List.nil_append] at hd
    simp only [bound, hd] at ih ⊢
    exact ih
  | case6 source _ _ _ reader h _ ih =>
    have hd := ByteReader.data_of_read h
    simp only [ByteRead.given, List.nil_append] at hd
    simp only [bound, hd] at ih ⊢
    exact ih
  | case7 source _ _ _ b bs reader h _ ih =>
    have hd := ByteReader.data_of_read h
    simp only [ByteRead.given] at hd
    simp only [bound, hd, List.length_append] at ih ⊢
    refine ⟨fun cs he => ?_, by omega⟩
    have := ih.1 cs he
    omega

instance : CharSource Utf8Source where
  read := read
  bound := bound
  length_le_limit {source limit cs source'} h := by
    unfold read at h
    split at h
    · simp only [Prod.mk.injEq, Except.ok.injEq] at h
      simp [← h.1]
    · exact ((pull_le limit source).1 cs (by rw [h])).1
  bound_of_ok {source limit cs source'} h := by
    unfold read at h
    split at h
    · simp only [Prod.mk.injEq, Except.ok.injEq] at h
      simp [← h.1, h.2]
    · have := ((pull_le limit source).1 cs (by rw [h])).2
      rwa [h] at this
  bound_of_error {source limit e source'} h := by
    unfold read at h
    split at h
    · simp at h
    · have := (pull_le limit source).2
      rwa [h] at this

end Utf8Source

end Stencil
