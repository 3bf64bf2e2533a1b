import Stencil.Decimal.Layout
import Stencil.Proofs.Lexemes
import Stencil.Proofs.Words

/-! Words with blanks between them.

A word that is written in front of a blank, or at the end of a text, is read from there, and nothing
more (`Lexeme.readWord_of_isWritten`). So a text that consists of words with blanks between them gives
just the lexemes with these words (`Word.Spaced.exists_lexemes`). Each word but a number with a fraction
has one plain way to be written, `Word.text`. -/
namespace Stencil

/-! ### One word -/

/-- The text is at its end or goes on with a blank. -/
def Text.Parted (rest : List Char) : Prop :=
  ∀ c ∈ rest.head?, isBlank c = true

/-- Characters of a kind are all there is of it in front of a character of another kind. -/
theorem Text.takeWhile_append_of_stop {p : Char → Bool} {more rest : List Char}
    (hrest : ∀ c ∈ rest.head?, p c = false) (hm : ∀ c ∈ more, p c = true) :
    (more ++ rest).takeWhile p = more ∧ (more ++ rest).dropWhile p = rest := by
  rw [List.takeWhile_append_of_pos hm, List.dropWhile_append_of_pos hm]
  cases rest with
  | nil => exact ⟨List.append_nil more, rfl⟩
  | cons c rest =>
    have hc : ¬p c = true := Bool.eq_false_iff.1 (hrest c rfl)
    rw [List.takeWhile_cons_of_neg hc, List.dropWhile_cons_of_neg hc]
    exact ⟨List.append_nil more, rfl⟩

/-- In front of a blank this is so of any kind that no blank is of. -/
theorem Text.Parted.takeWhile_append {rest : List Char} (h : Parted rest) {p : Char → Bool}
    (hp : ∀ c, p c = true → isBlank c = false) {more : List Char} (hm : ∀ c ∈ more, p c = true) :
    (more ++ rest).takeWhile p = more ∧ (more ++ rest).dropWhile p = rest := by
  refine takeWhile_append_of_stop (fun c hc => Bool.eq_false_iff.2 fun hpc => ?_) hm
  have hb := h c hc
  rw [hp c hpc] at hb
  cases hb

/-- No symbol ends with a blank. -/
theorem Symbol.ofPair?_eq_none (c : Char) {d : Char} (h : Text.isBlank d = true) :
    ofPair? c d = none := by
  cases hs : ofPair? c d with
  | none => rfl
  | some s =>
    unfold ofPair? at hs
    split at hs <;> cases hs <;> cases h

namespace Lexeme

theorem isBlank_of_isDigit {c : Char} (h : c.isDigit = true) : Text.isBlank c = false :=
  isBlank_of_isIdentPart (isIdentPart_of_isDigit h)

/-- No name begins with a digit. -/
theorem isIdentStart_of_isDigit {c : Char} (h : c.isDigit = true) : isIdentStart c = false := by
  have hdigits : (List.range' 48 10).all (fun n => !isIdentStart (Char.ofNat n)) = true := by
    decide +kernel
  have hc : c.toNat ∈ List.range' 48 10 := by
    obtain ⟨hlow, hhigh⟩ := Bool.and_eq_true_iff.1 h
    have hlow : 48 ≤ c.toNat := of_decide_eq_true hlow
    have hhigh : c.toNat ≤ 57 := of_decide_eq_true hhigh
    exact List.mem_range'_1.2 ⟨hlow, Nat.lt_succ_of_le hhigh⟩
  have hno := List.all_eq_true.1 hdigits c.toNat hc
  rw [Char.ofNat_toNat, Bool.not_eq_true'] at hno
  exact hno

theorem quoted_append {piece text : List Char} (h : Quoted piece text) (rest : List Char) :
    quoted (piece ++ rest) = .ok (text, piece.length) := by
  induction h with
  | close => rfl
  | escape c _ ih =>
    rw [List.cons_append, List.cons_append, quoted, ih]
    rfl
  | plain hq he _ ih =>
    rw [List.cons_append, quoted, ih]
    · rfl
    · exact hq
    · rintro rfl
      exact absurd rfl he
    · rintro _ _ rfl
      exact absurd rfl he

variable {c : Char} {more rest : List Char}

theorem number_digits (hrest : ∀ d ∈ rest.head?, d.isDigit = false ∧ d ≠ '.')
    (hd : ∀ d ∈ c :: more, d.isDigit = true) :
    number (c :: (more ++ rest)) = ((Decimal.readInt64? (c :: more)).map .int, more.length + 1) := by
  obtain ⟨htake, hdrop⟩ := Text.takeWhile_append_of_stop (fun d hd => (hrest d hd).1) hd
  rw [List.cons_append] at htake hdrop
  unfold number
  rw [htake, hdrop]
  dsimp only
  split
  · next d tail => exact absurd rfl (hrest '.' rfl).2
  · rfl

theorem number_fraction {d : Char} {whole fraction : List Char} (hrest : Text.Parted rest)
    (hw : ∀ d ∈ c :: whole, d.isDigit = true) (hf : ∀ e ∈ d :: fraction, e.isDigit = true) :
    number (c :: whole ++ '.' :: d :: (fraction ++ rest)) =
      ((Decimal.readDecimal? (c :: whole ++ '.' :: d :: fraction)).map .float,
        (c :: whole ++ '.' :: d :: fraction).length) := by
  have hpoint : ¬Char.isDigit '.' = true := by decide
  obtain ⟨hd, hf⟩ := List.forall_mem_cons.1 hf
  have hmore := (hrest.takeWhile_append (fun _ => isBlank_of_isDigit) hf).1
  unfold number
  rw [List.takeWhile_append_of_pos hw, List.takeWhile_cons_of_neg hpoint, List.append_nil,
    List.dropWhile_append_of_pos hw, List.dropWhile_cons_of_neg hpoint]
  dsimp only
  split
  · next htail =>
    cases htail
    rw [if_pos hd, hmore]
  · next hno => exact (hno _ _ rfl).elim

/-- **A word in front of a blank is read**, whatever stands behind that. -/
theorem readWord_of_isWritten {word : Word} (hw : word.IsWritten (c :: more))
    (hrest : Text.Parted rest) (start : Nat) :
    readWord start c (more ++ rest) = .ok (word, more.length) := by
  generalize hpiece : c :: more = piece at hw
  unfold readWord
  cases hw with
  | ident hc hm =>
    cases hpiece
    rw [if_pos hc, (hrest.takeWhile_append (fun _ => isBlank_of_isIdentPart) hm).1]
  | int hd hi =>
    cases hpiece
    have hc := hd c List.mem_cons_self
    have hstop : ∀ d ∈ rest.head?, d.isDigit = false ∧ d ≠ '.' := by
      intro d hd
      have hb := hrest d hd
      refine ⟨Bool.eq_false_iff.2 fun hdigit => ?_, ?_⟩
      · rw [isBlank_of_isDigit hdigit] at hb
        cases hb
      · rintro rfl
        cases hb
    rw [if_neg (Bool.eq_false_iff.1 (isIdentStart_of_isDigit hc)), if_pos hc,
      number_digits hstop hd, hi]
    rfl
  | @float c' d whole fraction x hw hf hx =>
    obtain ⟨rfl, hmore⟩ := List.cons.inj hpiece
    have hmore : more = whole ++ '.' :: d :: fraction := hmore
    subst hmore
    have hc := hw c List.mem_cons_self
    have hnumber := number_fraction hrest hw hf
    rw [hx] at hnumber
    rw [if_neg (Bool.eq_false_iff.1 (isIdentStart_of_isDigit hc)), if_pos hc, List.append_assoc,
      List.cons_append, List.cons_append, ← List.cons_append, hnumber]
    rfl
  | str hq =>
    cases hpiece
    have hstart : ¬isIdentStart '"' = true := by decide +kernel
    rw [if_neg hstart, if_neg (by decide), if_pos rfl, quoted_append hq]
  | symbol s =>
    -- A symbol of one character is not taken for the first half of one of two.
    have hlone : more = [] → (more ++ rest).head?.bind (Symbol.ofPair? c) = none := by
      rintro rfl
      cases rest with
      | nil => rfl
      | cons d rest => exact Symbol.ofPair?_eq_none c (hrest d rfl)
    have hstart : ¬isIdentStart c = true := by
      cases s <;> cases hpiece <;> decide +kernel
    cases s
    case arrow | coalesce | or | and | equal | notEqual | lessEqual | greaterEqual =>
      cases hpiece
      rw [if_neg hstart, if_neg (by decide), if_neg (by decide)]
      rfl
    all_goals
      cases hpiece
      rw [if_neg hstart, if_neg (by decide), if_neg (by decide), hlone rfl]
      rfl

end Lexeme

/-! ### Words as they are printed -/

/-- Whether the name can stand as a lexeme. -/
def Lexeme.isIdentifier (name : String) : Bool :=
  match name.toList with
  | [] => false
  | c :: more => isIdentStart c && more.all isIdentPart

/-- A text behind its opening quote, with a backslash in front of each quote and each backslash. -/
def Lexeme.escaped : List Char → List Char
  | [] => ['"']
  | c :: rest => if c = '"' || c = '\\' then '\\' :: c :: escaped rest else c :: escaped rest

theorem Lexeme.quoted_escaped (text : List Char) : Quoted (escaped text) text := by
  induction text with
  | nil => exact .close
  | cons c rest ih =>
    unfold escaped
    split
    · next hc =>
      -- Neither of the two stands for another character.
      have hself : unescape c = c := by
        obtain hc | hc := Bool.or_eq_true_iff.1 hc <;> cases of_decide_eq_true hc <;> rfl
      have hquoted := ih.escape c
      rw [hself] at hquoted
      exact hquoted
    · next hc =>
      obtain ⟨hq, he⟩ := Bool.or_eq_false_iff.1 (Bool.eq_false_iff.2 hc)
      exact ih.plain (of_decide_eq_false hq) (of_decide_eq_false he)

def Word.text : Word → List Char
  | ident name => name.toList
  | int i => Nat.toDigits 10 i.toInt.toNat
  | float x => (Decimal.Layout.inspected.write x).toList
  | str s => '"' :: Lexeme.escaped s.toList
  | symbol s => s.text

/-- The text of the word is read as the word: it is no number with a fraction or below zero, and no
name that could not be one. -/
def Word.Printable : Word → Prop
  | ident name => Lexeme.isIdentifier name = true
  | int i => 0 ≤ i.toInt
  | float _ => False
  | str _ | symbol _ => True

theorem Decimal.readInt64?_toDigits {i : Int64} (h : 0 ≤ i.toInt) :
    readInt64? (Nat.toDigits 10 i.toInt.toNat) = some i := by
  have hdigits : ∀ c ∈ Nat.toDigits 10 i.toInt.toNat, c.isDigit = true :=
    fun c hc => Nat.isDigit_of_mem_toDigits (by decide) (by decide) hc
  have hvalue : digitsValue (Nat.toDigits 10 i.toInt.toNat) = i.toInt.toNat :=
    Nat.ofDigitChars_toDigits (by decide) (by decide)
  have hsign : readSign (Nat.toDigits 10 i.toInt.toNat) =
      (false, Nat.toDigits 10 i.toInt.toNat) := by
    unfold readSign
    split
    · next hc => cases hdigits '-' (hc ▸ List.mem_cons_self)
    · next hc => cases hdigits '+' (hc ▸ List.mem_cons_self)
    · rfl
  have hint : readInt? (Nat.toDigits 10 i.toInt.toNat) = some i.toInt := by
    unfold readInt?
    rw [hsign]
    dsimp only
    rw [List.isEmpty_eq_false_iff.2 Nat.toDigits_ne_nil, List.all_eq_true.2 hdigits, hvalue,
      Int.toNat_of_nonneg h]
    rfl
  unfold readInt64?
  rw [hint]
  exact int64?_eq_some_iff.2 rfl

theorem Word.Printable.isWritten {word : Word} (h : word.Printable) : word.IsWritten word.text := by
  cases word with
  | ident name =>
    have hname : Lexeme.isIdentifier name = true := h
    unfold Lexeme.isIdentifier at hname
    split at hname
    · cases hname
    · next c more htext =>
      obtain ⟨hc, hm⟩ := Bool.and_eq_true_iff.1 hname
      have hwritten := IsWritten.ident hc (List.all_eq_true.1 hm)
      rw [← htext, String.ofList_toList] at hwritten
      exact hwritten
  | int i =>
    have hi := Decimal.readInt64?_toDigits h
    have hdigits : ∀ c ∈ Nat.toDigits 10 i.toInt.toNat, c.isDigit = true :=
      fun c hc => Nat.isDigit_of_mem_toDigits (by decide) (by decide) hc
    show IsWritten (Nat.toDigits 10 i.toInt.toNat) (.int i)
    cases hd : Nat.toDigits 10 i.toInt.toNat with
    | nil => exact absurd hd Nat.toDigits_ne_nil
    | cons c more =>
      rw [hd] at hi hdigits
      exact .int hdigits hi
  | float x => exact h.elim
  | str s =>
    have hwritten := IsWritten.str (Lexeme.quoted_escaped s.toList)
    rw [String.ofList_toList] at hwritten
    exact hwritten
  | symbol s => exact .symbol s

/-- What is written begins with a character other than a blank. -/
theorem Word.IsWritten.exists_cons {piece : List Char} {word : Word} (h : word.IsWritten piece) :
    ∃ c more, piece = c :: more ∧ Text.isBlank c = false := by
  cases h with
  | ident hc hm =>
    exact ⟨_, _, rfl, Lexeme.isBlank_of_isIdentPart (Lexeme.isIdentPart_of_isIdentStart hc)⟩
  | int hd => exact ⟨_, _, rfl, Lexeme.isBlank_of_isDigit (hd _ List.mem_cons_self)⟩
  | float hw => exact ⟨_, _, rfl, Lexeme.isBlank_of_isDigit (hw _ List.mem_cons_self)⟩
  | str => exact ⟨_, _, rfl, by decide⟩
  | symbol s => cases s <;> exact ⟨_, _, rfl, by decide⟩

/-! ### A text of words -/

/-- The text consists of these words, each of which is at the end or has a blank behind it, and of
more blanks. -/
inductive Word.Spaced : List Word → List Char → Prop
  | nil {text : List Char} (hb : Text.Blank text) : Spaced [] text
  | cons {word : Word} {words : List Word} {lead text : List Char} (hb : Text.Blank lead)
      (hp : Text.Parted text) (h : Spaced words text) :
      Spaced (word :: words) (lead ++ (word.text ++ text))

theorem Lexeme.ofChars_append {lead : List Char} (hb : Text.Blank lead) (start : Nat)
    (text : List Char) : ofChars start (lead ++ text) = ofChars (start + lead.length) text := by
  induction lead generalizing start with
  | nil => rfl
  | cons c lead ih =>
    obtain ⟨hc, hlead⟩ := List.forall_mem_cons.1 hb
    rw [List.cons_append, ofChars, if_pos hc, ih hlead, List.length_cons, Nat.add_assoc,
      Nat.add_comm 1]

/-- **A text of words is read as these words**, each at its place. -/
theorem Word.Spaced.exists_lexemes {words : List Word} {text : List Char} (h : Spaced words text)
    (hw : ∀ word ∈ words, word.Printable) (start : Nat) :
    ∃ lexemes, Lexeme.ofChars start text = .ok lexemes ∧ lexemes.map (·.word) = words := by
  induction h generalizing start with
  | @nil text hb =>
    have htext := Lexeme.ofChars_append hb start []
    rw [List.append_nil, Lexeme.ofChars] at htext
    exact ⟨[], htext, rfl⟩
  | @cons word words lead text hb hp _ ih =>
    obtain ⟨hword, hwords⟩ := List.forall_mem_cons.1 hw
    obtain ⟨c, more, hpiece, hc⟩ := hword.isWritten.exists_cons
    have hread := Lexeme.readWord_of_isWritten (hpiece ▸ hword.isWritten) hp (start + lead.length)
    obtain ⟨lexemes, hlexemes, hmap⟩ := ih hwords (start + lead.length + 1 + more.length)
    rw [Lexeme.ofChars_append hb, hpiece, List.cons_append, Lexeme.ofChars,
      if_neg (Bool.eq_false_iff.1 hc), hread]
    dsimp only
    rw [List.drop_left, hlexemes]
    exact ⟨_, rfl, congrArg (word :: ·) hmap⟩

/-- Some words, with one space in front of each. -/
def Word.line (words : List Word) : List Char :=
  words.flatMap fun word => ' ' :: word.text

theorem Word.spaced_line (words : List Word) : Spaced words (line words) := by
  induction words with
  | nil => exact .nil Text.blank_nil
  | cons word words ih =>
    refine .cons (List.forall_mem_singleton.2 (by decide : Text.isBlank ' ' = true)) ?_ ih
    cases words with
    | nil => exact nofun
    | cons next words =>
      rintro c ⟨⟩
      decide

end Stencil
