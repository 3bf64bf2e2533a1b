import Mathlib.Tactic.SplitIfs
import Stencil.Proofs.Utf8

/-! Reading UTF-8 against writing it.

What stands at the front of some bytes is read as a character just if these begin with the bytes that
the character is written in (`Text.utf8Front_encode`, `Text.encode_of_utf8Front`). What is not read as
one is the beginning of a character that is cut off, or no beginning of any (`Text.CutOff`). So the
characters at the front of some bytes are the longest text that the bytes begin with
(`Text.isLongest_utf8Chars`). -/
namespace Stencil
namespace Text

/-! ### One character -/

/-- The bytes of a character, by how many they are. -/
theorem encodeChar_cases (c : Char) :
    (c.toNat ≤ 0x7F ∧ String.utf8EncodeChar c = [UInt8.ofNat c.toNat]) ∨
    (0x7F < c.toNat ∧ c.toNat ≤ 0x7FF ∧
      String.utf8EncodeChar c =
        [UInt8.ofNat (c.toNat / 64 % 32 + 192), UInt8.ofNat (c.toNat % 64 + 128)]) ∨
    (0x7FF < c.toNat ∧ c.toNat ≤ 0xFFFF ∧
      String.utf8EncodeChar c =
        [UInt8.ofNat (c.toNat / 4096 % 16 + 224), UInt8.ofNat (c.toNat / 64 % 64 + 128),
          UInt8.ofNat (c.toNat % 64 + 128)]) ∨
    (0xFFFF < c.toNat ∧
      String.utf8EncodeChar c =
        [UInt8.ofNat (c.toNat / 262144 % 8 + 240), UInt8.ofNat (c.toNat / 4096 % 64 + 128),
          UInt8.ofNat (c.toNat / 64 % 64 + 128), UInt8.ofNat (c.toNat % 64 + 128)]) := by
  have hn : c.val.toNat = c.toNat := rfl
  unfold String.utf8EncodeChar
  dsimp only
  rw [hn]
  by_cases h₁ : c.toNat ≤ 0x7F
  · exact .inl ⟨h₁, if_pos h₁⟩
  rw [if_neg h₁]
  by_cases h₂ : c.toNat ≤ 0x7FF
  · exact .inr (.inl ⟨by omega, h₂, if_pos h₂⟩)
  rw [if_neg h₂]
  by_cases h₃ : c.toNat ≤ 0xFFFF
  · exact .inr (.inr (.inl ⟨by omega, h₃, if_pos h₃⟩))
  · exact .inr (.inr (.inr ⟨by omega, if_neg h₃⟩))

theorem toNat_ofNat_of_lt {n : Nat} (h : n < 256) : (UInt8.ofNat n).toNat = n := by
  rw [UInt8.toNat_ofNat']
  exact Nat.mod_eq_of_lt h

/-- A byte in the range goes on with the character. -/
theorem utf8Tail_cons {bits low high count n : Nat} {rest : List UInt8} (hn : n < 256)
    (h : low ≤ n ∧ n ≤ high) :
    utf8Tail bits low high (count + 1) (UInt8.ofNat n :: rest) =
      utf8Tail (bits * 64 + n % 64) 0x80 0xBF count rest := by
  rw [utf8Tail, toNat_ofNat_of_lt hn, if_pos h]

/-- Behind the first byte of several come the others. -/
theorem utf8Front_cons (unit : Nat) {low high count n : Nat} {rest : List UInt8} (hn : n < 256)
    (h : 0x80 ≤ n) (hs : secondByte? n = some (low, high, count)) (hu : 64 >>> count = unit) :
    utf8Front (UInt8.ofNat n :: rest) = utf8Tail (n % unit) low high count rest := by
  unfold utf8Front
  dsimp only
  rw [toNat_ofNat_of_lt hn, if_neg (by omega), hs]
  dsimp only
  rw [hu]

theorem secondByte?_two {n : Nat} (h : 0xC2 ≤ n ∧ n ≤ 0xDF) :
    secondByte? n = some (0x80, 0xBF, 1) :=
  if_pos h

/-- The second byte of a three-byte character is neither that of a shorter one nor of a surrogate. -/
theorem secondByte?_three {n : Nat} (h : 0xE0 ≤ n ∧ n ≤ 0xEF) :
    ∃ low high, secondByte? n = some (low, high, 2) ∧
      ∀ b, 0x80 ≤ b ∧ b ≤ 0xBF → (n = 0xE0 → 0xA0 ≤ b) → (n = 0xED → b ≤ 0x9F) → low ≤ b ∧ b ≤ high := by
  unfold secondByte?
  rw [if_neg (by omega)]
  by_cases h₀ : n = 0xE0
  · exact ⟨_, _, if_pos h₀, fun b hb h₁ _ => ⟨h₁ h₀, hb.2⟩⟩
  rw [if_neg h₀]
  by_cases h₁ : n = 0xED
  · exact ⟨_, _, if_pos h₁, fun b hb _ h₂ => ⟨hb.1, h₂ h₁⟩⟩
  rw [if_neg h₁]
  exact ⟨_, _, if_pos (by omega), fun b hb _ _ => hb⟩

theorem secondByte?_four {n : Nat} (h : 0xF0 ≤ n ∧ n ≤ 0xF4) :
    ∃ low high, secondByte? n = some (low, high, 3) ∧
      ∀ b, 0x80 ≤ b ∧ b ≤ 0xBF → (n = 0xF0 → 0x90 ≤ b) → (n = 0xF4 → b ≤ 0x8F) → low ≤ b ∧ b ≤ high := by
  unfold secondByte?
  rw [if_neg (by omega), if_neg (by omega), if_neg (by omega), if_neg (by omega)]
  by_cases h₀ : n = 0xF0
  · exact ⟨_, _, if_pos h₀, fun b hb h₁ _ => ⟨h₁ h₀, hb.2⟩⟩
  rw [if_neg h₀]
  by_cases h₁ : n = 0xF4
  · exact ⟨_, _, if_pos h₁, fun b hb _ h₂ => ⟨hb.1, h₂ h₁⟩⟩
  rw [if_neg h₁]
  exact ⟨_, _, if_pos (by omega), fun b hb _ _ => hb⟩

/-- **A character that was written is read.** -/
theorem utf8Front_encode (c : Char) (rest : List UInt8) :
    utf8Front (String.utf8EncodeChar c ++ rest) = .char c rest := by
  have hvalid : c.toNat < 0xD800 ∨ 0xDFFF < c.toNat ∧ c.toNat < 0x110000 := c.valid
  have hread : ∀ bits, bits = c.toNat → Utf8Front.char (Char.ofNat bits) rest = .char c rest := by
    rintro _ rfl
    rw [Char.ofNat_toNat]
  rcases encodeChar_cases c with ⟨h, he⟩ | ⟨h, h', he⟩ | ⟨h, h', he⟩ | ⟨h, he⟩ <;> rw [he]
  · show utf8Front (_ :: rest) = _
    unfold utf8Front
    dsimp only
    rw [toNat_ofNat_of_lt (by omega), if_pos (by omega)]
    exact hread _ rfl
  · show utf8Front (_ :: _ :: rest) = _
    rw [utf8Front_cons 32 (by omega) (by omega) (secondByte?_two (by omega)) rfl,
      utf8Tail_cons (by omega) (by omega)]
    exact hread _ (by omega)
  · obtain ⟨low, high, hs, hrange⟩ := secondByte?_three (n := c.toNat / 4096 % 16 + 224) (by omega)
    show utf8Front (_ :: _ :: _ :: rest) = _
    rw [utf8Front_cons 16 (by omega) (by omega) hs rfl,
      utf8Tail_cons (by omega) (hrange _ (by omega) (by omega) (by omega)),
      utf8Tail_cons (by omega) (by omega)]
    exact hread _ (by omega)
  · obtain ⟨low, high, hs, hrange⟩ := secondByte?_four (n := c.toNat / 262144 % 8 + 240) (by omega)
    show utf8Front (_ :: _ :: _ :: _ :: rest) = _
    rw [utf8Front_cons 8 (by omega) (by omega) hs rfl,
      utf8Tail_cons (by omega) (hrange _ (by omega) (by omega) (by omega)),
      utf8Tail_cons (by omega) (by omega), utf8Tail_cons (by omega) (by omega)]
    exact hread _ (by omega)

theorem ofNat_eq_of_toNat {n : Nat} (byte : UInt8) (h : n = byte.toNat) : UInt8.ofNat n = byte := by
  rw [h, UInt8.ofNat_toNat]

theorem toNat_char {n : Nat} (h : n < 0xD800 ∨ 0xDFFF < n ∧ n < 0x110000) :
    (Char.ofNat n).toNat = n := by
  unfold Char.ofNat
  rw [dif_pos (show n.isValidChar from h)]
  rfl

theorem encode_one {n : Nat} (b₀ : UInt8) (h : b₀.toNat < 0x80) (hn : n = b₀.toNat) :
    String.utf8EncodeChar (Char.ofNat n) = [b₀] := by
  have hc := toNat_char (n := n) (by omega)
  rcases encodeChar_cases (Char.ofNat n) with ⟨_, he⟩ | ⟨_, _, he⟩ | ⟨_, _, he⟩ | ⟨_, he⟩
  · rw [he, hc, ofNat_eq_of_toNat b₀ hn]
  all_goals omega

theorem encode_two {n : Nat} (b₀ b₁ : UInt8) (h₀ : 0xC2 ≤ b₀.toNat ∧ b₀.toNat ≤ 0xDF)
    (h₁ : 0x80 ≤ b₁.toNat ∧ b₁.toNat ≤ 0xBF) (hn : n = b₀.toNat % 32 * 64 + b₁.toNat % 64) :
    String.utf8EncodeChar (Char.ofNat n) = [b₀, b₁] := by
  have hc := toNat_char (n := n) (by omega)
  rcases encodeChar_cases (Char.ofNat n) with ⟨_, he⟩ | ⟨_, _, he⟩ | ⟨_, _, he⟩ | ⟨_, he⟩
  · omega
  · rw [he, hc, ofNat_eq_of_toNat b₀ (by omega), ofNat_eq_of_toNat b₁ (by omega)]
  all_goals omega

theorem encode_three {n : Nat} (b₀ b₁ b₂ : UInt8) (h₀ : 0xE0 ≤ b₀.toNat ∧ b₀.toNat ≤ 0xEF)
    (h₁ : 0x80 ≤ b₁.toNat ∧ b₁.toNat ≤ 0xBF) (h₂ : 0x80 ≤ b₂.toNat ∧ b₂.toNat ≤ 0xBF)
    (hlong : b₀.toNat = 0xE0 → 0xA0 ≤ b₁.toNat) (hsurrogate : b₀.toNat = 0xED → b₁.toNat ≤ 0x9F)
    (hn : n = (b₀.toNat % 16 * 64 + b₁.toNat % 64) * 64 + b₂.toNat % 64) :
    String.utf8EncodeChar (Char.ofNat n) = [b₀, b₁, b₂] := by
  have hc := toNat_char (n := n) (by omega)
  rcases encodeChar_cases (Char.ofNat n) with ⟨_, he⟩ | ⟨_, _, he⟩ | ⟨_, _, he⟩ | ⟨_, he⟩
  · omega
  · omega
  · rw [he, hc, ofNat_eq_of_toNat b₀ (by omega), ofNat_eq_of_toNat b₁ (by omega),
      ofNat_eq_of_toNat b₂ (by omega)]
  · omega

theorem encode_four {n : Nat} (b₀ b₁ b₂ b₃ : UInt8) (h₀ : 0xF0 ≤ b₀.toNat ∧ b₀.toNat ≤ 0xF4)
    (h₁ : 0x80 ≤ b₁.toNat ∧ b₁.toNat ≤ 0xBF) (h₂ : 0x80 ≤ b₂.toNat ∧ b₂.toNat ≤ 0xBF)
    (h₃ : 0x80 ≤ b₃.toNat ∧ b₃.toNat ≤ 0xBF)
    (hlong : b₀.toNat = 0xF0 → 0x90 ≤ b₁.toNat) (hlast : b₀.toNat = 0xF4 → b₁.toNat ≤ 0x8F)
    (hn : n = ((b₀.toNat % 8 * 64 + b₁.toNat % 64) * 64 + b₂.toNat % 64) * 64 + b₃.toNat % 64) :
    String.utf8EncodeChar (Char.ofNat n) = [b₀, b₁, b₂, b₃] := by
  have hc := toNat_char (n := n) (by omega)
  rcases encodeChar_cases (Char.ofNat n) with ⟨_, he⟩ | ⟨_, _, he⟩ | ⟨_, _, he⟩ | ⟨_, he⟩
  · omega
  · omega
  · omega
  · rw [he, hc, ofNat_eq_of_toNat b₀ (by omega), ofNat_eq_of_toNat b₁ (by omega),
      ofNat_eq_of_toNat b₂ (by omega), ofNat_eq_of_toNat b₃ (by omega)]

/-- What a first byte asks of the second, and how many follow it. -/
theorem of_secondByte? {n low high count : Nat} (h : secondByte? n = some (low, high, count)) :
    (count = 1 ∧ 0xC2 ≤ n ∧ n ≤ 0xDF ∨
        count = 2 ∧ 0xE0 ≤ n ∧ n ≤ 0xEF ∧ (n = 0xE0 → 0xA0 ≤ low) ∧ (n = 0xED → high ≤ 0x9F) ∨
        count = 3 ∧ 0xF0 ≤ n ∧ n ≤ 0xF4 ∧ (n = 0xF0 → 0x90 ≤ low) ∧ (n = 0xF4 → high ≤ 0x8F)) ∧
      0x80 ≤ low ∧ low ≤ high ∧ high ≤ 0xBF := by
  unfold secondByte? at h
  split_ifs at h <;> cases h <;> omega

/-- **A character that is read was written.** -/
theorem encode_of_utf8Front {c : Char} {bytes rest : List UInt8}
    (h : utf8Front bytes = .char c rest) : bytes = String.utf8EncodeChar c ++ rest := by
  -- A character with more bytes to come has one in the range at its front.
  have htail : ∀ {bits low high count : Nat} {bytes : List UInt8},
      utf8Tail bits low high (count + 1) bytes = .char c rest → ∃ byte more, bytes = byte :: more ∧
        (low ≤ byte.toNat ∧ byte.toNat ≤ high) ∧
        utf8Tail (bits * 64 + byte.toNat % 64) 0x80 0xBF count more = .char c rest := by
    intro bits low high count bytes h
    cases bytes with
    | nil => cases h
    | cons byte more =>
      rw [utf8Tail] at h
      split at h
      · next hb => exact ⟨byte, more, rfl, hb, h⟩
      · cases h
  cases bytes with
  | nil => cases h
  | cons b₀ more =>
    unfold utf8Front at h
    dsimp only at h
    split at h
    · next hb =>
      cases h
      exact congrArg (· ++ rest) (encode_one b₀ hb rfl).symm
    · cases hs : secondByte? b₀.toNat with
      | none =>
        rw [hs] at h
        cases h
      | some range =>
        obtain ⟨low, high, count⟩ := range
        rw [hs] at h
        obtain ⟨⟨rfl, h₀⟩ | ⟨rfl, h₀⟩ | ⟨rfl, h₀⟩, hlow, _, hhigh⟩ := of_secondByte? hs
        · obtain ⟨b₁, more, rfl, h₁, h⟩ := htail h
          cases h
          exact congrArg (· ++ rest) (encode_two b₀ b₁ h₀ (by omega) rfl).symm
        · obtain ⟨b₁, more, rfl, h₁, h⟩ := htail h
          obtain ⟨b₂, more, rfl, h₂, h⟩ := htail h
          cases h
          exact congrArg (· ++ rest)
            (encode_three b₀ b₁ b₂ (by omega) (by omega) h₂ (by omega) (by omega) rfl).symm
        · obtain ⟨b₁, more, rfl, h₁, h⟩ := htail h
          obtain ⟨b₂, more, rfl, h₂, h⟩ := htail h
          obtain ⟨b₃, more, rfl, h₃, h⟩ := htail h
          cases h
          exact congrArg (· ++ rest)
            (encode_four b₀ b₁ b₂ b₃ (by omega) (by omega) h₂ h₃ (by omega) (by omega) rfl).symm

/-! ### Characters that are cut off -/

/-- The bytes are the beginning of a character, but not all of it. -/
def CutOff (bytes : List UInt8) : Prop :=
  bytes ≠ [] ∧ ∃ c more, more ≠ [] ∧ String.utf8EncodeChar c = bytes ++ more

/-- Whatever bits there are, bytes can follow that make a character of them. -/
theorem exists_utf8Tail (bits : Nat) {low high : Nat} (count : Nat) (hl : low ≤ high)
    (hh : high < 256) : ∃ more c, utf8Tail bits low high count more = .char c [] := by
  induction count generalizing bits low high with
  | zero => exact ⟨[], _, rfl⟩
  | succ count ih =>
    obtain ⟨more, c, hm⟩ := @ih (bits * 64 + low % 64) 0x80 0xBF (by decide) (by decide)
    refine ⟨UInt8.ofNat low :: more, c, ?_⟩
    rw [utf8Tail_cons (by omega) ⟨Nat.le_refl low, hl⟩, hm]

/-- Bytes that are not complete can be completed. -/
theorem exists_utf8Tail_append {bits low high count : Nat} {bytes : List UInt8} (hl : low ≤ high)
    (hh : high < 256) (h : utf8Tail bits low high count bytes = .incomplete) :
    ∃ more c, more ≠ [] ∧ utf8Tail bits low high count (bytes ++ more) = .char c [] := by
  induction count generalizing bits low high bytes with
  | zero => cases h
  | succ count ih =>
    cases bytes with
    | nil =>
      obtain ⟨more, c, hm⟩ := exists_utf8Tail bits (count + 1) hl hh
      refine ⟨more, c, ?_, hm⟩
      rintro rfl
      cases hm
    | cons byte rest =>
      rw [utf8Tail] at h
      split at h
      · next hb =>
        obtain ⟨more, c, hne, hm⟩ := ih (by decide) (by decide) h
        exact ⟨more, c, hne, by rw [List.cons_append, utf8Tail, if_pos hb, hm]⟩
      · cases h

theorem cutOff_of_incomplete {bytes : List UInt8} (h : utf8Front bytes = .incomplete)
    (hne : bytes ≠ []) : CutOff bytes := by
  refine ⟨hne, ?_⟩
  cases bytes with
  | nil => exact absurd rfl hne
  | cons byte rest =>
    have hread : ∃ more c, more ≠ [] ∧ utf8Front (byte :: rest ++ more) = .char c [] := by
      unfold utf8Front at h ⊢
      dsimp only [List.cons_append] at h ⊢
      split at h
      · cases h
      · cases hs : secondByte? byte.toNat with
        | none =>
          rw [hs] at h
          cases h
        | some range =>
          obtain ⟨low, high, count⟩ := range
          rw [hs] at h
          obtain ⟨_, _, hle, hhigh⟩ := of_secondByte? hs
          obtain ⟨more, c, hmore, hm⟩ := exists_utf8Tail_append hle (by omega) h
          exact ⟨more, c, hmore, by rw [if_neg ‹_›]; exact hm⟩
    obtain ⟨more, c, hmore, hm⟩ := hread
    refine ⟨c, more, hmore, ?_⟩
    rw [encode_of_utf8Front hm, List.append_nil]

/-- Nothing makes a character of what begins as none. -/
theorem not_cutOff_of_invalid {bytes : List UInt8} (h : utf8Front bytes = .invalid) :
    ¬CutOff bytes := by
  rintro ⟨_, c, more, _, hc⟩
  have hread := utf8Front_encode c []
  rw [hc, List.append_assoc, utf8Front_append_of_invalid h] at hread
  cases hread

/-! ### The longest text -/

theorem utf8Bytes_append (text more : List Char) :
    utf8Bytes (text ++ more) = utf8Bytes text ++ utf8Bytes more :=
  List.flatMap_append

/-- Some bytes are the UTF-8 of the characters at their front, and of what is behind these. -/
theorem utf8Bytes_utf8Chars (bytes : List UInt8) :
    utf8Bytes (utf8Chars bytes) ++ utf8Behind bytes = bytes := by
  fun_induction utf8Chars bytes with
  | case1 bytes c rest h ih =>
    rw [(utf8Chars_of_char h).2]
    show (String.utf8EncodeChar c ++ utf8Bytes (utf8Chars rest)) ++ utf8Behind rest = bytes
    rw [List.append_assoc, ih, ← encode_of_utf8Front h]
  | case2 bytes h =>
    rw [(utf8Chars_of_no_char h).2]
    rfl

/-- Behind them stands no other character. -/
theorem no_char_utf8Behind (bytes : List UInt8) :
    ∀ c rest, utf8Front (utf8Behind bytes) ≠ .char c rest := by
  fun_induction utf8Chars bytes with
  | case1 bytes c rest h ih =>
    rw [(utf8Chars_of_char h).2]
    exact ih
  | case2 bytes h =>
    rw [(utf8Chars_of_no_char h).2]
    exact h

theorem utf8Chars_utf8Bytes_append (text : List Char) (rest : List UInt8) :
    utf8Chars (utf8Bytes text ++ rest) = text ++ utf8Chars rest := by
  induction text with
  | nil => rfl
  | cons c text ih =>
    have hfront : utf8Front (utf8Bytes (c :: text) ++ rest) = .char c (utf8Bytes text ++ rest) := by
      rw [show utf8Bytes (c :: text) = String.utf8EncodeChar c ++ utf8Bytes text from rfl,
        List.append_assoc]
      exact utf8Front_encode c _
    rw [(utf8Chars_of_char hfront).1, ih]
    rfl

/-- The bytes begin with the UTF-8 of a text, and with that of no longer one. -/
structure IsLongest (bytes : List UInt8) (text : List Char) : Prop where
  isPrefix : utf8Bytes text <+: bytes
  length_le : ∀ text', utf8Bytes text' <+: bytes →
    (utf8Bytes text').length ≤ (utf8Bytes text).length

theorem isLongest_utf8Chars (bytes : List UInt8) : IsLongest bytes (utf8Chars bytes) where
  isPrefix := ⟨_, utf8Bytes_utf8Chars bytes⟩
  length_le text' h := by
    obtain ⟨rest, rfl⟩ := h
    rw [utf8Chars_utf8Bytes_append, utf8Bytes_append, List.length_append]
    exact Nat.le_add_right ..
end Text
end Stencil
