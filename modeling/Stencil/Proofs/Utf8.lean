import Stencil.Proofs.Source
import Stencil.Source.Utf8

/-! What a reader of bytes tells.

Decoded as they come in, bytes give the characters at the front of all of them (`Text.utf8Chars`), and
then fail or end in the way that what is behind those characters calls for. So a reader of bytes is a
steady source, and neither the text it tells nor its ending depends on how the bytes are delivered
(`Utf8Source.rest_eq`, `Utf8Source.ending_eq`). -/
namespace Stencil

namespace Text

/-! ### More bytes -/

theorem utf8Tail_append {count bits low high : Nat} {bytes : List UInt8} (more : List UInt8)
    (h : utf8Tail bits low high count bytes ≠ .incomplete) :
    utf8Tail bits low high count (bytes ++ more) =
      match utf8Tail bits low high count bytes with
      | .char c rest => .char c (rest ++ more)
      | front => front := by
  induction count generalizing bits low high bytes with
  | zero => rfl
  | succ count ih =>
    cases bytes with
    | nil => exact absurd rfl h
    | cons byte rest =>
      rw [List.cons_append]
      unfold utf8Tail at h ⊢
      by_cases hb : low ≤ byte.toNat ∧ byte.toNat ≤ high
      · rw [if_pos hb] at h ⊢
        rw [if_pos hb]
        exact ih h
      · rw [if_neg hb, if_neg hb]

/-- Bytes behind a character, or behind what is none, do not matter to it. -/
theorem utf8Front_append {bytes : List UInt8} (more : List UInt8)
    (h : utf8Front bytes ≠ .incomplete) :
    utf8Front (bytes ++ more) =
      match utf8Front bytes with
      | .char c rest => .char c (rest ++ more)
      | front => front := by
  cases bytes with
  | nil => exact absurd rfl h
  | cons byte rest =>
    rw [List.cons_append]
    unfold utf8Front at h ⊢
    dsimp only at h ⊢
    by_cases hb : byte.toNat < 0x80
    · rw [if_pos hb, if_pos hb]
    · rw [if_neg hb] at h ⊢
      rw [if_neg hb]
      cases hs : secondByte? byte.toNat with
      | none => rfl
      | some range =>
        obtain ⟨low, high, count⟩ := range
        rw [hs] at h
        exact utf8Tail_append more h

theorem utf8Front_append_of_char {bytes rest : List UInt8} {c : Char}
    (h : utf8Front bytes = .char c rest) (more : List UInt8) :
    utf8Front (bytes ++ more) = .char c (rest ++ more) := by
  rw [utf8Front_append more (by rw [h]; nofun), h]

theorem utf8Front_append_of_invalid {bytes : List UInt8} (h : utf8Front bytes = .invalid)
    (more : List UInt8) : utf8Front (bytes ++ more) = .invalid := by
  rw [utf8Front_append more (by rw [h]; nofun), h]

/-! ### All characters -/

/-- The characters at the front of some bytes. -/
def utf8Chars (bytes : List UInt8) : List Char :=
  match _h : utf8Front bytes with
  | .char c rest => c :: utf8Chars rest
  | _ => []
termination_by bytes.length
decreasing_by exact length_of_utf8Front ‹_›

/-- The bytes behind them. -/
def utf8Behind (bytes : List UInt8) : List UInt8 :=
  match _h : utf8Front bytes with
  | .char _ rest => utf8Behind rest
  | _ => bytes
termination_by bytes.length
decreasing_by exact length_of_utf8Front ‹_›

theorem utf8Chars_of_char {bytes rest : List UInt8} {c : Char}
    (h : utf8Front bytes = .char c rest) :
    utf8Chars bytes = c :: utf8Chars rest ∧ utf8Behind bytes = utf8Behind rest := by
  rw [utf8Chars, utf8Behind]
  constructor
  · split
    · next h' =>
      rw [h] at h'
      cases h'
      rfl
    · next hn => exact absurd h (hn c rest)
  · split
    · next h' =>
      rw [h] at h'
      cases h'
      rfl
    · next hn => exact absurd h (hn c rest)

theorem utf8Chars_of_no_char {bytes : List UInt8} (h : ∀ c rest, utf8Front bytes ≠ .char c rest) :
    utf8Chars bytes = [] ∧ utf8Behind bytes = bytes := by
  rw [utf8Chars, utf8Behind]
  constructor
  · split
    · next h' => exact absurd h' (h _ _)
    · rfl
  · split
    · next h' => exact absurd h' (h _ _)
    · rfl

/-- If the bytes are the UTF-8 of a text, then that text is their characters, and nothing is behind
them. -/
theorem utf8Chars_of_ofUtf8? {bytes : List UInt8} {text : List Char}
    (h : ofUtf8? bytes = some text) : utf8Chars bytes = text ∧ utf8Behind bytes = [] := by
  fun_induction ofUtf8? bytes generalizing text with
  | case1 =>
    cases h
    exact utf8Chars_of_no_char nofun
  | case2 byte more c rest hf ih =>
    obtain ⟨chars, hr, rfl⟩ := Option.map_eq_some_iff.1 h
    obtain ⟨hc, hb⟩ := utf8Chars_of_char hf
    obtain ⟨hc', hb'⟩ := ih hr
    rw [hc, hb, hc', hb']
    exact ⟨rfl, rfl⟩
  | case3 => cases h

end Text

namespace Utf8Source

/-- Decoding some characters and then the others is decoding them all. -/
theorem utf8Chars_decode (limit : Nat) (bytes more : List UInt8) :
    Text.utf8Chars (bytes ++ more) =
        (decode limit bytes).1 ++ Text.utf8Chars ((decode limit bytes).2 ++ more) ∧
      Text.utf8Behind (bytes ++ more) = Text.utf8Behind ((decode limit bytes).2 ++ more) := by
  induction limit generalizing bytes with
  | zero => exact ⟨rfl, rfl⟩
  | succ limit ih =>
    unfold decode
    split
    · next c rest h =>
      obtain ⟨hc, hb⟩ := Text.utf8Chars_of_char (Text.utf8Front_append_of_char h more)
      obtain ⟨hc', hb'⟩ := ih rest
      rw [hc, hb, hc', hb']
      exact ⟨rfl, rfl⟩
    · exact ⟨rfl, rfl⟩

/-- Where no character is decoded, none is at the front. -/
theorem no_char_of_decode {limit : Nat} {bytes rest : List UInt8} (hl : 0 < limit)
    (h : decode limit bytes = ([], rest)) : ∀ c rest, Text.utf8Front bytes ≠ .char c rest := by
  intro c rest' hf
  cases limit with
  | zero => omega
  | succ limit =>
    unfold decode at h
    rw [hf] at h
    cases h

def ahead (source : Utf8Source) : List UInt8 :=
  source.pending ++ if source.ended then [] else source.reader.data

/-- How the reader fails behind the last byte, if it does not report the end. -/
def failure (source : Utf8Source) : Option String :=
  if source.ended then none else source.reader.failure

/-- How a text ends that was decoded up to some bytes. -/
def endingOf (behind : List UInt8) (failure : Option String) : Option String :=
  match Text.utf8Front behind with
  | .invalid => some notUtf8
  | _ => failure.or (if behind.isEmpty then none else some endsInside)

/-! ### Reads of bytes -/

theorem data_of_failed {reader reader' : ByteReader} {limit : Nat} {message : String}
    (h : reader.read limit = (.failed message, reader')) :
    reader.data = [] ∧ reader.failure = some message := by
  have hgive : ∀ {reader reader' : ByteReader} {count : Nat},
      reader.give count = (.failed message, reader') →
      reader.data = [] ∧ reader.failure = some message := by
    intro reader reader' count h
    unfold ByteReader.give at h
    split at h
    · next hd hf =>
      cases h
      exact ⟨hd, hf⟩
    · cases h
  unfold ByteReader.read at h
  split at h
  · exact hgive h
  · cases h
  · have hg := hgive h
    exact hg

theorem data_of_end {reader reader' : ByteReader} {limit : Nat} (hl : 0 < limit)
    (h : reader.read limit = (.bytes [], reader')) :
    reader.data = [] ∧ reader.failure = none := by
  have hgive : ∀ {reader reader' : ByteReader} {count : Nat}, 0 < count →
      reader.give count = (.bytes [], reader') → reader.data = [] ∧ reader.failure = none := by
    intro reader reader' count hc h
    unfold ByteReader.give at h
    split at h
    · cases h
    · next hn =>
      have htake : reader.data.take count = [] := by
        injection congrArg Prod.fst h
      have hd : reader.data = [] := by
        rcases List.take_eq_nil_iff.1 htake with h0 | hd
        · omega
        · exact hd
      refine ⟨hd, ?_⟩
      cases hf : reader.failure with
      | none => rfl
      | some message => exact absurd hf (hn message hd)
  unfold ByteReader.read at h
  split at h
  · exact hgive hl h
  · cases h
  · have hg := hgive (by omega) h
    exact hg

/-- Reading does not change how the reader fails in the end. -/
theorem failure_of_read {reader reader' : ByteReader} {limit : Nat} {result : ByteRead}
    (h : reader.read limit = (result, reader')) : reader'.failure = reader.failure := by
  have hgive : ∀ {reader reader' : ByteReader} {count : Nat},
      reader.give count = (result, reader') → reader'.failure = reader.failure := by
    intro reader reader' count h
    unfold ByteReader.give at h
    split at h <;> cases h <;> rfl
  unfold ByteReader.read at h
  split at h
  · exact hgive h
  · cases h
    rfl
  · have hg := hgive h
    exact hg

/-! ### Reads of characters -/

theorem endingOf_of_ne_invalid {behind : List UInt8} (h : Text.utf8Front behind ≠ .invalid)
    (failure : Option String) :
    endingOf behind failure = failure.or (if behind.isEmpty then none else some endsInside) := by
  unfold endingOf
  split
  · next hi => exact absurd hi h
  · rfl

/-- What pulling characters does: those that it gives are taken off the front of the bytes ahead; it
gives none only at the end, and fails only there, as the bytes and the reader have it. -/
structure Pulls (source source' : Utf8Source) (result : Except String (List Char)) : Prop where
  failure : source'.failure = source.failure
  behind : Text.utf8Behind source'.ahead = Text.utf8Behind source.ahead
  chars : ∀ cs, result = .ok cs →
    Text.utf8Chars source.ahead = cs ++ Text.utf8Chars source'.ahead
  of_end : result = .ok [] → Text.utf8Chars source.ahead = [] ∧
    endingOf (Text.utf8Behind source.ahead) source.failure = none
  of_error : ∀ e, result = .error e → Text.utf8Chars source.ahead = [] ∧
    Text.utf8Chars source'.ahead = [] ∧
    endingOf (Text.utf8Behind source.ahead) source.failure = some e

/-- Bytes that move from the reader to the source are ahead before and after. -/
theorem Pulls.of_ahead_eq {source middle source' : Utf8Source} {result : Except String (List Char)}
    (ha : middle.ahead = source.ahead) (hf : middle.failure = source.failure)
    (h : middle.Pulls source' result) : source.Pulls source' result := by
  refine ⟨h.failure.trans hf, ?_, ?_, ?_, ?_⟩
  · rw [← ha]
    exact h.behind
  · rw [← ha]
    exact h.chars
  · rw [← ha, ← hf]
    exact h.of_end
  · rw [← ha, ← hf]
    exact h.of_error

theorem pulls_pull {source source' : Utf8Source} {limit : Nat} {result : Except String (List Char)}
    (hl : 0 < limit) (h : source.pull limit = (result, source')) : source.Pulls source' result := by
  fun_induction pull limit source with
  | case1 source c cs rest hd =>
    cases h
    obtain ⟨hc, hb⟩ :=
      utf8Chars_decode limit source.pending (if source.ended then [] else source.reader.data)
    rw [hd] at hc hb
    refine ⟨rfl, hb.symm, fun cs' he => ?_, fun he => ?_, fun e he => ?_⟩
    · cases he
      exact hc
    · cases he
    · cases he
  | case2 source rest hd hi =>
    obtain ⟨rfl, rfl⟩ := Prod.mk.inj h
    have hfront : Text.utf8Front source.ahead = .invalid := Text.utf8Front_append_of_invalid hi _
    have hno : ∀ c rest, Text.utf8Front source.ahead ≠ .char c rest := by
      intro c rest hc
      rw [hfront] at hc
      cases hc
    obtain ⟨hc, hb⟩ := Text.utf8Chars_of_no_char hno
    refine ⟨rfl, rfl, fun cs he => ?_, fun he => ?_, fun e he => ⟨hc, hc, ?_⟩⟩
    · cases he
    · cases he
    · cases he
      rw [hb, endingOf, hfront]
  | case3 source rest hd he hi =>
    have hahead : source.ahead = source.pending := by
      rw [ahead, if_pos he, List.append_nil]
    obtain ⟨hc, hb⟩ := Text.utf8Chars_of_no_char (no_char_of_decode hl hd)
    have hending : endingOf (Text.utf8Behind source.ahead) source.failure =
        if source.pending.isEmpty then none else some endsInside := by
      rw [hahead, hb, endingOf_of_ne_invalid hi, failure, if_pos he, Option.none_or]
    rw [← hahead] at hc
    by_cases hp : source.pending.isEmpty = true
    · rw [if_pos hp] at h hending
      cases h
      refine ⟨rfl, rfl, fun cs he => ?_, fun _ => ⟨hc, hending⟩, fun e he => ?_⟩
      · cases he
        rfl
      · cases he
    · rw [if_neg hp] at h hending
      cases h
      refine ⟨rfl, rfl, fun cs he => ?_, fun he => ?_, fun e he => ?_⟩
      · cases he
      · cases he
      · cases he
        exact ⟨hc, hc, hending⟩
  | case4 source rest hd he message reader hr hi =>
    cases h
    obtain ⟨hdata, hfailure⟩ := data_of_failed hr
    have hdata' : reader.data = [] := by
      have := ByteReader.data_of_read hr
      rw [hdata] at this
      exact this.symm
    have hahead : source.ahead = source.pending := by
      rw [ahead, if_neg he, hdata, List.append_nil]
    have hahead' : ({ source with reader } : Utf8Source).ahead = source.pending := by
      rw [ahead, if_neg he, hdata', List.append_nil]
    obtain ⟨hc, hb⟩ := Text.utf8Chars_of_no_char (no_char_of_decode hl hd)
    refine ⟨?_, ?_, fun cs hm => ?_, fun hm => ?_, fun e hm => ⟨?_, ?_, ?_⟩⟩
    · rw [failure, failure, if_neg he, if_neg he]
      exact failure_of_read hr
    · rw [hahead, hahead']
    · cases hm
    · cases hm
    · rw [hahead]
      exact hc
    · rw [hahead']
      exact hc
    · cases hm
      rw [hahead, hb, endingOf_of_ne_invalid hi, failure, if_neg he, hfailure]
      rfl
  | case5 source rest hd he reader hr hi ih =>
    refine .of_ahead_eq ?_ ?_ (ih h)
    · have := ByteReader.data_of_read hr
      rw [ahead, ahead, if_neg he, if_neg he, this]
      rfl
    · rw [failure, failure, if_neg he, if_neg he]
      exact failure_of_read hr
  | case6 source rest hd he reader hr hi ih =>
    obtain ⟨hdata, hfailure⟩ := data_of_end (by decide) hr
    refine .of_ahead_eq ?_ ?_ (ih h)
    · rw [ahead, ahead, if_neg he, if_pos rfl, hdata]
    · rw [failure, failure, if_neg he, if_pos rfl, hfailure]
  | case7 source rest hd he b bs reader hr hi ih =>
    refine .of_ahead_eq ?_ ?_ (ih h)
    · have := ByteReader.data_of_read hr
      rw [ahead, ahead, if_neg he, if_neg he, this, List.append_assoc]
      rfl
    · rw [failure, failure, if_neg he, if_neg he]
      exact failure_of_read hr

theorem pulls_read {source source' : Utf8Source} {limit : Nat} {result : Except String (List Char)}
    (h : CharSource.read source limit = (result, source')) (hl : 0 < limit) :
    source.Pulls source' result := by
  have hr : source.read limit = (result, source') := h
  unfold read at hr
  rw [if_neg (by omega)] at hr
  exact pulls_pull hl hr

instance : SteadySource Utf8Source where
  rest source := Text.utf8Chars source.ahead
  ending source := endingOf (Text.utf8Behind source.ahead) source.failure
  rest_of_ok h hl := (pulls_read h hl).chars _ rfl
  rest_of_end h hl := ((pulls_read h hl).of_end rfl).1
  rest_of_error h hl := by
    have hp := (pulls_read h hl).of_error _ rfl
    rw [hp.1, hp.2.1]
  ending_of_ok h hl := by
    have hp := pulls_read h hl
    rw [hp.behind, hp.failure]
  ending_of_end h hl := ((pulls_read h hl).of_end rfl).2
  rest_of_failure h hl := ((pulls_read h hl).of_error _ rfl).1
  ending_of_failure h hl := ((pulls_read h hl).of_error _ rfl).2.2

end Utf8Source

end Stencil
