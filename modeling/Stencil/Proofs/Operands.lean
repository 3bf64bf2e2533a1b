import Stencil.Proofs.Grammar
import Stencil.Proofs.Lexemes
import Stencil.Proofs.Presets

/-! What the text of an expression shows outside quotes.

No lexeme has a brace in it, and only `<` and the percent sign could be a part of a delimiter together
with what follows. But both are operators, so an operand follows (`Supplied`), and no operand begins
with a percent sign or with `>`. So no delimiter is seen in the text of an expression
(`Lambda.tame_of_parse`), and the first thing in it that is more than a name or a parenthesis is the
arrow (`Lambda.arrowed_of_parse`). -/
namespace Stencil

/-! ### Operands -/

/-- An operand can begin with the word. -/
def Word.begins : Word → Bool
  | .symbol .openParen | .symbol .bang | .symbol .minus => true
  | .symbol _ => false
  | _ => true

/-- The word is an operator that could be a part of a delimiter. -/
def Word.wants : Word → Bool
  | .symbol .less | .symbol .percent => true
  | _ => false

/-- The lexemes begin as an operand does. -/
def Begins (lexemes : List Lexeme) : Prop :=
  ∃ first more, lexemes = first :: more ∧ first.word.begins = true

/-- An operand follows wherever one is wanted. -/
def Supplied : List Lexeme → Prop
  | [] => True
  | lexeme :: rest => (lexeme.word.wants = true → Begins rest) ∧ Supplied rest

theorem Begins.append {front : List Lexeme} (h : Begins front) (back : List Lexeme) :
    Begins (front ++ back) := by
  obtain ⟨first, more, rfl, hfirst⟩ := h
  exact ⟨first, more ++ back, rfl, hfirst⟩

theorem Supplied.append {front back : List Lexeme} (h : Supplied front) (h' : Supplied back) :
    Supplied (front ++ back) := by
  induction front with
  | nil => exact h'
  | cons lexeme rest ih => exact ⟨fun hw => (h.1 hw).append back, ih h.2⟩

theorem Supplied.cons {lexeme : Lexeme} {rest : List Lexeme} (h : Supplied rest)
    (hw : lexeme.word.wants = false) : Supplied (lexeme :: rest) :=
  ⟨fun hn => absurd hn (Bool.eq_false_iff.1 hw), h⟩

theorem supplied_singleton {lexeme : Lexeme} (hw : lexeme.word.wants = false) : Supplied [lexeme] :=
  ⟨fun hn => absurd hn (Bool.eq_false_iff.1 hw), trivial⟩

/-- Behind an operator stands an operand. -/
theorem supplied_cons_of_begins {rest : List Lexeme} (h : Begins rest ∧ Supplied rest)
    (lexeme : Lexeme) : Supplied (lexeme :: rest) :=
  ⟨fun _ => h.1, h.2⟩

theorem begins_of_prefixOp? {symbol : Symbol} {op : UnaryOp}
    (h : Expr.Parser.prefixOp? symbol = some op) : (Word.symbol symbol).begins = true := by
  cases symbol <;> first | rfl | cases h

/-- What spells an expression begins as an operand does, and has an operand wherever one is wanted. -/
theorem Expr.Derives.supplied {stratum : Stratum} {lexemes : List Lexeme} {es : List Expr}
    (h : Derives stratum lexemes es) : Begins lexemes ∧ Supplied lexemes := by
  have hlone : ∀ {word : Word} {span : Span}, word.begins = true → word.wants = false →
      Begins [⟨word, span⟩] ∧ Supplied [⟨word, span⟩] := fun hb hw =>
    ⟨⟨_, _, rfl, hb⟩, supplied_singleton hw⟩
  induction h with
  | int | float | str | named => exact hlone rfl rfl
  | group _ ih =>
    exact ⟨⟨_, _, rfl, rfl⟩, (ih.2.append (supplied_singleton rfl)).cons rfl⟩
  | ofPrimary _ ih | ofPostfixed _ ih | ofPrefixed _ ih | ofTighter _ ih | ofJoined _ ih
  | ofCoalesced _ ih | lastArgument _ ih => exact ih
  | member name _ ih =>
    exact ⟨ih.1.append _, ih.2.append ((supplied_singleton rfl).cons rfl)⟩
  | invoke name _ ih =>
    refine ⟨ih.1.append _, ih.2.append ?_⟩
    exact (((supplied_singleton rfl).cons rfl).cons rfl).cons rfl
  | call name _ _ ih ihargs =>
    refine ⟨ih.1.append _, ih.2.append ?_⟩
    exact (((ihargs.2.append (supplied_singleton rfl)).cons rfl).cons rfl).cons rfl
  | index _ _ ih ihi =>
    exact ⟨ih.1.append _, ih.2.append ((ihi.2.append (supplied_singleton rfl)).cons rfl)⟩
  | unary hop _ ih => exact ⟨⟨_, _, rfl, begins_of_prefixOp? hop⟩, supplied_cons_of_begins ih _⟩
  | binary _ _ _ ihl ihr => exact ⟨ihl.1.append _, ihl.2.append (supplied_cons_of_begins ihr _)⟩
  | coalesce _ _ ihl ihr | argument _ _ ihl ihr =>
    exact ⟨ihl.1.append _, ihl.2.append (supplied_cons_of_begins ihr _)⟩
  | conditional _ _ _ ihc ihy ihn =>
    refine ⟨ihc.1.append _, ihc.2.append ?_⟩
    exact (ihy.2.append (supplied_cons_of_begins ihn _)).cons rfl

/-! ### Words, as they are seen -/

theorem Text.Plain.harmless {text : List Char} (h : Plain text) : Harmless text := by
  have hsigns : (Quoting.mark :: harms).all signs.contains = true := by decide
  have hno : ∀ c ∈ Quoting.mark :: harms, c ∉ text := fun c hc hmem =>
    h c hmem (List.contains_iff_mem.1 (List.all_eq_true.1 hsigns c hc))
  intro c hc
  exact ⟨fun he => hno c (he ▸ List.mem_cons_self ..) hc,
    fun hharm => hno c (List.mem_cons_of_mem _ hharm) hc⟩

/-- There is no sign in a name or in a number. -/
theorem Word.IsWritten.plain {piece : List Char} {word : Word} (h : word.IsWritten piece)
    (hs : ∀ s, word ≠ .str s) (hsymbol : ∀ s, word ≠ .symbol s) : Text.Plain piece := by
  have hdigit : ∀ {c : Char}, c.isDigit = true → c ∉ Text.signs := fun hc =>
    Text.notMem_signs_of_isIdentPart (Lexeme.isIdentPart_of_isDigit hc)
  cases h with
  | ident hc hm =>
    refine List.forall_mem_cons.2 ⟨?_, fun d hd => Text.notMem_signs_of_isIdentPart (hm d hd)⟩
    exact Text.notMem_signs_of_isIdentPart (Lexeme.isIdentPart_of_isIdentStart hc)
  | int hd => exact fun d hmem => hdigit (hd d hmem)
  | float hw hf =>
    intro d hmem
    rcases List.mem_append.1 hmem with hmem | hmem
    · exact hdigit (hw d hmem)
    · rcases List.mem_cons.1 hmem with rfl | hmem
      · decide
      · exact hdigit (hf d hmem)
  | str => exact absurd rfl (hs _)
  | symbol s => exact absurd rfl (hsymbol s)

/-- Of a quoted text nothing but quotes is seen. -/
theorem Lexeme.Quoted.mask_eq {piece text : List Char} (h : Quoted piece text) :
    Quoting.inside.after piece = .outside ∧ ∀ c ∈ Quoting.inside.mask piece, c = Quoting.mark := by
  induction h with
  | close => exact ⟨rfl, fun c hc => List.mem_singleton.1 hc⟩
  | escape c _ ih =>
    exact ⟨ih.1, List.forall_mem_cons.2 ⟨rfl, List.forall_mem_cons.2 ⟨rfl, ih.2⟩⟩⟩
  | @plain c piece text hq he _ ih =>
    have hnext : Quoting.inside.next c = .inside := (if_neg he).trans (if_neg hq)
    refine ⟨?_, ?_⟩
    · show (Quoting.inside.next c).after piece = .outside
      rw [hnext]
      exact ih.1
    · rw [Quoting.mask, hnext]
      exact List.forall_mem_cons.2 ⟨rfl, ih.2⟩

theorem Symbol.harmless {s : Symbol} (hl : s ≠ .less) (hle : s ≠ .lessEqual) (hp : s ≠ .percent) :
    Harmless s.text := by
  cases s <;> first | decide | contradiction

/-- The first character of an operand. -/
theorem Word.IsWritten.head {piece : List Char} {word : Word} (h : word.IsWritten piece)
    (hb : word.begins = true) : ∀ c ∈ piece.head?, c ≠ '%' ∧ c ≠ '>' := by
  have hplain : Text.Plain piece → ∀ c ∈ piece.head?, c ≠ '%' ∧ c ≠ '>' := by
    intro hplain c hc
    have hsign := hplain c (List.mem_of_mem_head? hc)
    exact ⟨fun he => hsign (he ▸ by decide), fun he => hsign (he ▸ by decide)⟩
  cases word with
  | ident | int | float => exact hplain (h.plain nofun nofun)
  | str s =>
    cases h
    rintro c ⟨⟩
    decide
  | symbol s =>
    cases h
    cases s <;> first | (rintro c ⟨⟩; decide) | cases hb

theorem Lexeme.Spells.head {start : Nat} {text : List Char} {lexemes : List Lexeme}
    (h : Spells start text lexemes) (hb : Begins lexemes) :
    ∃ c rest, text = c :: rest ∧ c ≠ '%' ∧ c ≠ '>' := by
  obtain ⟨first, more, rfl, hfirst⟩ := hb
  cases h with
  | @blank _ c rest _ hblank =>
    have hsign := Text.notMem_signs_of_isBlank hblank
    exact ⟨c, rest, rfl, fun he => hsign (he ▸ by decide), fun he => hsign (he ▸ by decide)⟩
  | @word _ c piece rest word _ hblank hwritten =>
    exact ⟨c, piece ++ rest, rfl, hwritten.head hfirst c rfl⟩

/-- A word does no harm in front of a text that does none, if that begins with an operand where one is
wanted. -/
theorem Word.IsWritten.tame {piece text : List Char} {word : Word} (h : word.IsWritten piece)
    (ht : Tame text)
    (hw : word.wants = true → ∃ c rest, text = c :: rest ∧ c ≠ '%' ∧ c ≠ '>') :
    Tame (piece ++ text) := by
  cases word with
  | ident | int | float =>
    exact ht.append_unquoted (h.plain nofun nofun).harmless
  | str s =>
    cases h with
    | str hquoted =>
      obtain ⟨hbalanced, hmask⟩ := hquoted.mask_eq
      refine ht.append hbalanced fun c hc => ?_
      have hc : c = Quoting.mark := (List.mem_cons.1 hc).elim id (hmask c)
      rw [hc]
      decide
  | symbol s =>
    cases h
    by_cases hl : s = .less
    · subst hl
      obtain ⟨c, rest, rfl, hpercent, hgreater⟩ := hw rfl
      exact ht.cons (by decide) (apart_of_right hpercent hgreater _)
    by_cases hp : s = .percent
    · subst hp
      obtain ⟨c, rest, rfl, hpercent, hgreater⟩ := hw rfl
      exact ht.cons (by decide) (apart_of_right hpercent hgreater _)
    by_cases hle : s = .lessEqual
    · subst hle
      have hequal : Tame ('=' :: text) := ht.cons_unquoted (by decide)
      exact hequal.cons (by decide) (apart_of_right (by decide) (by decide) _)
    exact ht.append_unquoted (Symbol.harmless hl hle hp)

/-- **No delimiter of a preset is seen in a text of lexemes** in which an operand follows wherever one
is wanted. -/
theorem Lexeme.Spells.tame {start : Nat} {text : List Char} {lexemes : List Lexeme}
    (h : Spells start text lexemes) (hs : Supplied lexemes) : Tame text := by
  induction h with
  | nil => exact tame_nil
  | blank hb _ ih =>
    have hblank : Text.Blank [_] := List.forall_mem_singleton.2 hb
    exact (ih hs).cons_unquoted (hblank.plain.harmless _ (List.mem_singleton_self _))
  | word _ hw hspells ih => exact hw.tame (ih hs.2) fun hwants => hspells.head (hs.1 hwants)

/-! ### Expression texts -/

theorem Lambda.exists_of_parse {text : String} {lambda : Lambda}
    (h : Lambda.parse text = .ok lambda) :
    ∃ lexemes, Lexeme.Spells 0 text.toList lexemes ∧ Lambda.ofLexemes lexemes = .ok lambda := by
  obtain ⟨lexemes, hlexemes, h⟩ := Eval.exists_of_bind h
  exact ⟨lexemes, Lexeme.spells_of_ofChars hlexemes, h⟩

/-- **No delimiter of a preset is seen in the text of an expression.** -/
theorem Lambda.tame_of_parse {text : String} {lambda : Lambda}
    (h : Lambda.parse text = .ok lambda) : Tame text.toList := by
  obtain ⟨lexemes, hspells, h⟩ := exists_of_parse h
  obtain ⟨name, arrow, body, hbody, rfl | ⟨before, behind, rfl⟩⟩ := derives_of_ofLexemes h
  · exact hspells.tame ((hbody.supplied.2.cons rfl).cons rfl)
  · exact hspells.tame ((((hbody.supplied.2.cons rfl).cons rfl).cons rfl).cons rfl)

/-- The text of some lexemes is blanks, the text of the first one, and the text of the others. -/
theorem Lexeme.Spells.exists_cons {start : Nat} {text : List Char} {lexeme : Lexeme}
    {more : List Lexeme} (h : Spells start text (lexeme :: more)) :
    ∃ lead piece rest start', text = lead ++ (piece ++ rest) ∧ Text.Blank lead ∧ piece ≠ [] ∧
      (∀ c ∈ piece.head?, Text.isBlank c = false) ∧ lexeme.word.IsWritten piece ∧
      Spells start' rest more := by
  generalize hlexemes : lexeme :: more = lexemes at h
  induction h with
  | nil => cases hlexemes
  | @blank start c text lexemes hb _ ih =>
    obtain ⟨lead, piece, rest, start', rfl, hlead, hpiece⟩ := ih hlexemes
    exact ⟨c :: lead, piece, rest, start', rfl, List.forall_mem_cons.2 ⟨hb, hlead⟩, hpiece⟩
  | @word start c piece rest word lexemes hb hw hrest =>
    cases hlexemes
    refine ⟨[], c :: piece, rest, _, rfl, Text.blank_nil, List.cons_ne_nil _ _, fun d hd => ?_, hw,
      hrest⟩
    cases hd
    exact hb

/-- A word has no sign in it, however it is written. -/
def Word.IsPlain (word : Word) : Prop :=
  ∀ piece, word.IsWritten piece → Text.Plain piece

theorem Word.isPlain_ident (name : String) : (Word.ident name).IsPlain :=
  fun _ h => h.plain nofun nofun

theorem Word.isPlain_openParen : (Word.symbol .openParen).IsPlain := by
  rintro piece ⟨⟩
  decide

theorem Word.isPlain_closeParen : (Word.symbol .closeParen).IsPlain := by
  rintro piece ⟨⟩
  decide

/-- Some words without signs, and the text of the others. -/
theorem Lexeme.Spells.exists_append {start : Nat} {text : List Char} {front more : List Lexeme}
    (h : Spells start text (front ++ more)) (hf : ∀ lexeme ∈ front, lexeme.word.IsPlain) :
    ∃ before rest start', text = before ++ rest ∧ Text.Plain before ∧ Spells start' rest more := by
  induction front generalizing start text with
  | nil => exact ⟨[], text, start, rfl, fun _ h => absurd h List.not_mem_nil, h⟩
  | cons lexeme front ih =>
    obtain ⟨hplain, hf⟩ := List.forall_mem_cons.1 hf
    obtain ⟨lead, piece, rest, start', rfl, hlead, -, -, hw, hspells⟩ := h.exists_cons
    obtain ⟨before, rest, start', rfl, hbefore, hspells⟩ := ih hspells hf
    refine ⟨lead ++ (piece ++ before), rest, start', ?_, ?_, hspells⟩
    · rw [List.append_assoc, List.append_assoc]
    · exact hlead.plain.append ((hplain piece hw).append hbefore)

/-- Without the blanks at its ends the text is `core`, which begins with something that has no sign in
it, and goes on with an arrow. -/
structure Arrowed (text core : List Char) : Prop where
  exists_blank : ∃ lead trail, text = lead ++ core ++ trail ∧ Text.Blank lead ∧ Text.Blank trail
  tight : Text.Tight core
  exists_arrow : ∃ param body, core = param ++ (Symbol.arrow.text ++ body) ∧ param ≠ [] ∧
    Text.Plain param

theorem last_arrow_append {body : List Char} (h : ∀ c ∈ body.getLast?, Text.isBlank c = false) :
    ∀ c ∈ (Symbol.arrow.text ++ body).getLast?, Text.isBlank c = false := by
  intro c hc
  cases body with
  | nil =>
    cases hc
    decide
  | cons d body =>
    rw [List.getLast?_append_of_ne_nil _ (List.cons_ne_nil d body)] at hc
    exact h c hc

/-- Lexemes spell such a text if the first that has a sign in it is an arrow, and not the very first of
all. -/
theorem Lexeme.Spells.arrowed {start : Nat} {text : List Char} {first arrow : Lexeme}
    (front : List Lexeme) {body : List Lexeme} (h : Spells start text (first :: (front ++ arrow :: body)))
    (hfirst : first.word.IsPlain) (hf : ∀ lexeme ∈ front, lexeme.word.IsPlain)
    (ha : arrow.word = .symbol .arrow) : ∃ core, Arrowed text core := by
  obtain ⟨lead, piece, rest, start', rfl, hlead, hne, hhead, hw, hrest⟩ := h.exists_cons
  obtain ⟨before, rest, start', rfl, hbefore, hrest⟩ := hrest.exists_append hf
  obtain ⟨blanks, sign, rest, start', rfl, hblanks, -, -, harrow, -⟩ := hrest.exists_cons
  rw [ha] at harrow
  cases harrow
  obtain ⟨body, trail, rfl, htrail, hlast⟩ := Text.exists_blank_trail rest
  have hparam : piece ++ (before ++ blanks) ≠ [] := fun hn => hne (List.append_eq_nil_iff.1 hn).1
  have hsign : Symbol.arrow.text ++ body ≠ [] := List.cons_ne_nil _ _
  refine ⟨piece ++ (before ++ blanks) ++ (Symbol.arrow.text ++ body),
    ⟨lead, trail, by simp only [List.append_assoc], hlead, htrail⟩,
    ⟨fun hn => hparam (List.append_eq_nil_iff.1 hn).1, fun c hc => ?_, fun c hc => ?_⟩,
    _, body, rfl, hparam, (hfirst piece hw).append (hbefore.append hblanks.plain)⟩
  · rw [List.append_assoc, List.head?_append_of_ne_nil _ hne] at hc
    exact hhead c hc
  · rw [List.getLast?_append_of_ne_nil _ hsign] at hc
    exact last_arrow_append hlast c hc

/-- **In the text of an expression the arrow comes first**, but for a parameter, which is a name and
perhaps in parentheses. -/
theorem Lambda.arrowed_of_parse {text : String} {lambda : Lambda}
    (h : Lambda.parse text = .ok lambda) : ∃ core, Arrowed text.toList core := by
  obtain ⟨lexemes, hspells, h⟩ := exists_of_parse h
  obtain ⟨name, arrow, body, -, rfl | ⟨before, behind, rfl⟩⟩ := derives_of_ofLexemes h
  · exact Lexeme.Spells.arrowed [] hspells (Word.isPlain_ident _) (fun _ h => absurd h List.not_mem_nil)
      rfl
  · refine Lexeme.Spells.arrowed [_, _] hspells Word.isPlain_openParen ?_ rfl
    intro lexeme hmem
    rcases List.mem_pair.1 hmem with rfl | rfl
    · exact Word.isPlain_ident _
    · exact Word.isPlain_closeParen

end Stencil
