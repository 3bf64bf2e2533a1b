import Mathlib.Data.List.TakeWhile
import Stencil.Expr.Lexeme

/-! How lexemes are written.

A text of lexemes is a text of words with blanks between them (`Lexeme.Spells`), and each word is
written in its own way (`Word.IsWritten`): a name with letters, a number with digits, a quoted text with
quotes around it, and a symbol as it stands. -/
namespace Stencil

def Symbol.text : Symbol → List Char
  | arrow => ['=', '>']
  | openParen => ['(']
  | closeParen => [')']
  | openBracket => ['[']
  | closeBracket => [']']
  | comma => [',']
  | dot => ['.']
  | question => ['?']
  | colon => [':']
  | coalesce => ['?', '?']
  | or => ['|', '|']
  | and => ['&', '&']
  | equal => ['=', '=']
  | notEqual => ['!', '=']
  | less => ['<']
  | lessEqual => ['<', '=']
  | greater => ['>']
  | greaterEqual => ['>', '=']
  | plus => ['+']
  | minus => ['-']
  | star => ['*']
  | slash => ['/']
  | percent => ['%']
  | bang => ['!']

theorem Symbol.text_of_ofPair? {c d : Char} {symbol : Symbol} (h : ofPair? c d = some symbol) :
    symbol.text = [c, d] := by
  unfold ofPair? at h
  split at h <;> cases h <;> rfl

theorem Symbol.text_of_ofChar? {c : Char} {symbol : Symbol} (h : ofChar? c = some symbol) :
    symbol.text = [c] := by
  unfold ofChar? at h
  split at h <;> cases h <;> rfl

/-- The rest of a quoted text, behind its opening quote, and what the text says. -/
inductive Lexeme.Quoted : (piece text : List Char) → Prop
  | close : Quoted ['"'] []
  | escape {piece text : List Char} (c : Char) (h : Quoted piece text) :
      Quoted ('\\' :: c :: piece) (unescape c :: text)
  | plain {c : Char} {piece text : List Char} (hq : c ≠ '"') (he : c ≠ '\\')
      (h : Quoted piece text) : Quoted (c :: piece) (c :: text)

/-- A word is written as this piece of text. -/
inductive Word.IsWritten : (piece : List Char) → Word → Prop
  | ident {c : Char} {more : List Char} (hc : Lexeme.isIdentStart c = true)
      (hm : ∀ d ∈ more, Lexeme.isIdentPart d = true) :
      IsWritten (c :: more) (.ident (String.ofList (c :: more)))
  | int {c : Char} {more : List Char} {i : Int64} (hd : ∀ d ∈ c :: more, d.isDigit = true)
      (hi : Decimal.readInt64? (c :: more) = some i) : IsWritten (c :: more) (.int i)
  | float {c d : Char} {whole fraction : List Char} {x : Float}
      (hw : ∀ d ∈ c :: whole, d.isDigit = true) (hf : ∀ e ∈ d :: fraction, e.isDigit = true)
      (hx : Decimal.readDecimal? (c :: whole ++ '.' :: d :: fraction) = some x) :
      IsWritten (c :: whole ++ '.' :: d :: fraction) (.float x)
  | str {more text : List Char} (hq : Lexeme.Quoted more text) :
      IsWritten ('"' :: more) (.str (String.ofList text))
  | symbol (s : Symbol) : IsWritten s.text (.symbol s)

namespace Lexeme

/-- A text, which begins at an offset, consists of these lexemes and of blanks. -/
inductive Spells : (start : Nat) → List Char → List Lexeme → Prop
  | nil {start : Nat} : Spells start [] []
  | blank {start : Nat} {c : Char} {text : List Char} {lexemes : List Lexeme}
      (hb : Text.isBlank c = true) (h : Spells (start + 1) text lexemes) :
      Spells start (c :: text) lexemes
  | word {start : Nat} {c : Char} {piece text : List Char} {word : Word} {lexemes : List Lexeme}
      (hb : Text.isBlank c = false) (hw : word.IsWritten (c :: piece))
      (h : Spells (start + 1 + piece.length) text lexemes) :
      Spells start (c :: piece ++ text) (⟨word, ⟨start, start + 1 + piece.length⟩⟩ :: lexemes)

theorem exists_of_quoted {rest text : List Char} {length : Nat}
    (h : quoted rest = .ok (text, length)) :
    Quoted (rest.take length) text ∧ (rest.take length).length = length := by
  fun_induction quoted rest generalizing text length with
  | case1 => cases h
  | case2 rest =>
    cases h
    exact ⟨.close, rfl⟩
  | case3 => cases h
  | case4 c rest text' length' hq ih =>
    cases h
    obtain ⟨hquoted, hlen⟩ := ih hq
    exact ⟨.escape c hquoted, congrArg (· + 2) hlen⟩
  | case5 => cases h
  | case6 c rest hq hnone hmore text' length' hrest ih =>
    cases h
    obtain ⟨hquoted, hlen⟩ := ih hrest
    refine ⟨.plain hq ?_ hquoted, congrArg (· + 1) hlen⟩
    rintro rfl
    cases rest with
    | nil => exact hnone rfl rfl
    | cons d rest => exact hmore d rest rfl rfl
  | case7 => cases h

theorem isDigit_of_mem_takeWhile {text : List Char} :
    ∀ d ∈ text.takeWhile Char.isDigit, d.isDigit = true :=
  fun _ hd => List.mem_takeWhile_imp hd

/-- A number is written with digits, and perhaps a point between two of them. -/
theorem exists_of_number {c : Char} {rest : List Char} {word : Word} {length : Nat}
    (hc : c.isDigit = true) (h : number (c :: rest) = (some word, length)) :
    ∃ more, more <+: rest ∧ length = more.length + 1 ∧ word.IsWritten (c :: more) := by
  have htake : (c :: rest).takeWhile Char.isDigit = c :: rest.takeWhile Char.isDigit :=
    List.takeWhile_cons_of_pos hc
  have hdrop : (c :: rest).dropWhile Char.isDigit = rest.dropWhile Char.isDigit :=
    List.dropWhile_cons_of_pos hc
  have hdigits : ∀ d ∈ c :: rest.takeWhile Char.isDigit, d.isDigit = true :=
    List.forall_mem_cons.2 ⟨hc, isDigit_of_mem_takeWhile⟩
  have hwhole : ∀ {w : Option Word} {n : Nat},
      ((Decimal.readInt64? (c :: rest.takeWhile Char.isDigit)).map Word.int,
        (c :: rest.takeWhile Char.isDigit).length) = (w, n) → w = some word →
      ∃ more, more <+: rest ∧ n = more.length + 1 ∧ word.IsWritten (c :: more) := by
    intro w n he hw
    cases he
    obtain ⟨i, hi, rfl⟩ := Option.map_eq_some_iff.1 hw
    exact ⟨_, List.takeWhile_prefix _, rfl, .int hdigits hi⟩
  unfold number at h
  rw [htake, hdrop] at h
  dsimp only at h
  split at h
  · next d tail htail =>
    split at h
    · next hd =>
      obtain ⟨hword, rfl⟩ := Prod.mk.inj h
      obtain ⟨x, hx, rfl⟩ := Option.map_eq_some_iff.1 hword
      refine ⟨rest.takeWhile Char.isDigit ++ '.' :: d :: tail.takeWhile Char.isDigit, ?_, rfl,
        .float hdigits (List.forall_mem_cons.2 ⟨hd, isDigit_of_mem_takeWhile⟩) hx⟩
      have hrest := List.takeWhile_append_dropWhile (p := Char.isDigit) (l := rest)
      rw [htail] at hrest
      have htail' := List.takeWhile_append_dropWhile (p := Char.isDigit) (l := tail)
      refine ⟨tail.dropWhile Char.isDigit, ?_⟩
      rw [List.append_assoc, List.cons_append, List.cons_append, htail', hrest]
    · exact hwhole h rfl
  · exact hwhole h rfl

/-- A word that is read is written in the characters that it takes. -/
theorem exists_of_readWord {start more : Nat} {c : Char} {rest : List Char} {word : Word}
    (h : readWord start c rest = .ok (word, more)) :
    word.IsWritten (c :: rest.take more) ∧ (rest.take more).length = more := by
  have htaken : ∀ {piece : List Char}, piece <+: rest → rest.take piece.length = piece := by
    intro piece hp
    exact (List.prefix_iff_eq_take.1 hp).symm
  unfold readWord at h
  split at h
  · next hc =>
    cases h
    rw [htaken (List.takeWhile_prefix _)]
    exact ⟨.ident hc fun _ hd => List.mem_takeWhile_imp hd, rfl⟩
  · split at h
    · next hc =>
      split at h
      · next word' length hn =>
        cases h
        obtain ⟨piece, hp, rfl, hwritten⟩ := exists_of_number hc hn
        rw [Nat.add_sub_cancel, htaken hp]
        exact ⟨hwritten, rfl⟩
      · cases h
    · split at h
      · next hc =>
        split at h
        · next text length hq =>
          cases h
          obtain ⟨hquoted, hlen⟩ := exists_of_quoted hq
          exact ⟨hc ▸ .str hquoted, hlen⟩
        · cases h
      · split at h
        · next symbol hs =>
          cases h
          obtain ⟨d, hd, hs⟩ := Option.bind_eq_some_iff.1 hs
          cases rest with
          | nil => cases hd
          | cons d' rest =>
            cases hd
            have hwritten := Word.IsWritten.symbol symbol
            rw [Symbol.text_of_ofPair? hs] at hwritten
            exact ⟨hwritten, rfl⟩
        · split at h
          · next symbol hs =>
            cases h
            have hwritten := Word.IsWritten.symbol symbol
            rw [Symbol.text_of_ofChar? hs] at hwritten
            exact ⟨hwritten, rfl⟩
          · cases h

/-- **A text consists of the lexemes that are read from it**, and of blanks. -/
theorem spells_of_ofChars {start : Nat} {text : List Char} {lexemes : List Lexeme}
    (h : ofChars start text = .ok lexemes) : Spells start text lexemes := by
  fun_induction ofChars start text generalizing lexemes with
  | case1 =>
    cases h
    exact .nil
  | case2 start c rest hb ih => exact .blank hb (ih h)
  | case3 => cases h
  | case4 => cases h
  | case5 start c rest hb word more hw stop lexemes' hrest =>
    rename_i ih
    cases h
    obtain ⟨hwritten, hlen⟩ := exists_of_readWord hw
    have hspells : Spells (start + 1 + (rest.take more).length) (rest.drop more) lexemes' := by
      rw [hlen]
      exact ih hrest
    have hword := Spells.word (Bool.eq_false_iff.2 hb) hwritten hspells
    rw [hlen, List.cons_append, List.take_append_drop] at hword
    exact hword

end Lexeme

end Stencil
