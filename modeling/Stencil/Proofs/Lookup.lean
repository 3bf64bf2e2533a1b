import Stencil.Expr.Evaluator
import Stencil.Proofs.Naming
import Stencil.Proofs.Printing

/-! One variable, looked up in two ways.

A token that is a name looks the name up, and where the text of a name ends in an index that is not
bound itself, it looks into the value of the name in front. An expression reads the name off its
parameter and looks into that with an index of its own. The name is taken apart in the one case and read
as lexemes in the other, and the digits are read twice over; but the two come to the same
(`Evaluator.standard_eq_get?`). -/
namespace Stencil

/-! ### Names with an index -/

namespace Name
variable {name digits : String}

/-- The name with an index behind it. -/
def indexed (name digits : String) : String :=
  name ++ "[" ++ digits ++ "]"

theorem toList_indexed (name digits : String) :
    (indexed name digits).toList = name.toList ++ '[' :: (digits.toList ++ [']']) := by
  simp [indexed]

/-- A name without an index is a letter and what a name can go on with. -/
theorem exists_letter (h : isValid name = true) (hb : '[' ∉ name.toList) :
    ∃ c more, name.toList = c :: more ∧ Text.isLetter c = true ∧ ∀ d ∈ more, isPart d = true := by
  unfold isValid at h
  split at h
  · cases h
  · next c rest hname =>
    obtain ⟨hletter, htail⟩ := Bool.and_eq_true_iff.1 h
    refine ⟨c, rest, hname, hletter, List.dropWhile_eq_nil_iff.1 ?_⟩
    split at htail
    · next hnil => exact hnil
    · -- An index would have a bracket in it.
      obtain ⟨digits, hindex, -⟩ := exists_of_isIndex htail
      refine absurd ?_ hb
      have hopen : '[' ∈ rest.dropWhile isPart := by simp [hindex]
      rw [hname]
      exact List.mem_cons_of_mem _ ((List.dropWhile_sublist isPart).mem hopen)

theorem forall_isPart (h : isValid name = true) (hb : '[' ∉ name.toList) :
    ∀ d ∈ name.toList, isPart d = true := by
  obtain ⟨c, more, hname, hc, hmore⟩ := exists_letter h hb
  rw [hname]
  exact List.forall_mem_cons.2 ⟨by simp [isPart, hc], hmore⟩

/-- A name without an index is not taken apart. -/
theorem splitIndex?_eq_none (h : isValid name = true) (hb : '[' ∉ name.toList) :
    splitIndex? name = none := by
  unfold splitIndex?
  split
  · next rest hrev =>
    have hclose : ']' ∈ name.toList := List.mem_reverse.1 (hrev ▸ List.mem_cons_self)
    exact absurd rfl (not_bracket_of_isPart (forall_isPart h hb _ hclose)).2
  · rfl

/-- A name with an index is taken apart into the two. -/
theorem splitIndex?_indexed (h : isValid name = true) (hd : digits.toList ≠ [])
    (hdigits : ∀ c ∈ digits.toList, c.isDigit = true) :
    splitIndex? (indexed name digits) = some (name, digits) := by
  have hrev : (indexed name digits).toList.reverse =
      ']' :: (digits.toList.reverse ++ '[' :: name.toList.reverse) := by
    simp [toList_indexed]
  have hstop : ∀ c ∈ ('[' :: name.toList.reverse).head?, c.isDigit = false := by simp
  obtain ⟨htake, hdrop⟩ := Text.takeWhile_append_of_stop hstop
    fun c hc => hdigits c (List.mem_reverse.1 hc)
  obtain ⟨-, hsolid⟩ := plain_of_isValid h
  have hline : '\n' ∉ name.toList := fun hc => absurd (hsolid _ hc) (by decide)
  have hne : name.toList ≠ [] := (forall_mem_of_isValid h).1
  unfold splitIndex?
  simp [hrev, htake, hdrop, hd, hne, hline]

end Name

/-! ### Looking up -/

namespace Variables
variable {vars : Variables} {name digits : String}

theorem get?_of_isValid (h : Name.isValid name = true) (hb : '[' ∉ name.toList) :
    vars.get? name = vars.bound? name := by
  unfold get?
  cases hv : vars.bound? name with
  | some v => rfl
  | none => simp [Name.splitIndex?_eq_none h hb]

/-- Where it is not bound itself, a name with an index stands for an element. -/
theorem get?_indexed (h : Name.isValid name = true) (hd : digits.toList ≠ [])
    (hdigits : ∀ c ∈ digits.toList, c.isDigit = true)
    (hu : vars.bound? (Name.indexed name digits) = none) :
    vars.get? (Name.indexed name digits) =
      (vars.bound? name).bind fun value =>
        (Decimal.readInt64? digits.toList).bind fun index => (value.element index).toOption := by
  unfold get?
  rw [hu, Name.splitIndex?_indexed h hd hdigits]
  rfl

end Variables

/-! ### Reading a text without blanks -/

namespace Lexeme
variable {c : Char} {more rest : List Char} {word : Word}

/-- The lexeme of a word in front of those of what follows. -/
theorem ofChars_cons {start taken : Nat} (hb : Text.isBlank c = false)
    (hr : readWord start c rest = .ok (word, taken)) :
    ofChars start (c :: rest) =
      (ofChars (start + 1 + taken) (rest.drop taken)).map
        (⟨word, ⟨start, start + 1 + taken⟩⟩ :: ·) := by
  rw [ofChars, if_neg (by simp [hb]), hr]
  dsimp only
  cases ofChars (start + 1 + taken) (rest.drop taken) <;> rfl

theorem ofChars_ident (hc : isIdentStart c = true) (hm : ∀ d ∈ more, isIdentPart d = true)
    (hrest : ∀ d ∈ rest.head?, isIdentPart d = false) (start : Nat) :
    ofChars start (c :: (more ++ rest)) =
      (ofChars (start + 1 + more.length) rest).map
        (⟨.ident (String.ofList (c :: more)), ⟨start, start + 1 + more.length⟩⟩ :: ·) := by
  have hread : readWord start c (more ++ rest) =
      .ok (.ident (String.ofList (c :: more)), more.length) := by
    unfold readWord
    rw [if_pos hc, (Text.takeWhile_append_of_stop hrest hm).1]
  rw [ofChars_cons (isBlank_of_isIdentPart (isIdentPart_of_isIdentStart hc)) hread, List.drop_left]

/-- Of one character is a symbol that no symbol of two begins with. -/
theorem ofChars_symbol {symbol : Symbol} (hs : Symbol.ofChar? c = some symbol)
    (hp : ∀ d, Symbol.ofPair? c d = none) (start : Nat) :
    ofChars start (c :: rest) =
      (ofChars (start + 1) rest).map (⟨.symbol symbol, ⟨start, start + 1⟩⟩ :: ·) := by
  obtain ⟨hb, hi, hd, hq⟩ : Text.isBlank c = false ∧ isIdentStart c = false ∧ c.isDigit = false ∧
      c ≠ '"' := by
    have htext := Symbol.text_of_ofChar? hs
    cases symbol <;> cases htext <;> decide +kernel
  have hread : readWord start c rest = .ok (.symbol symbol, 0) := by
    have hnone : rest.head?.bind (Symbol.ofPair? c) = none := by
      cases rest <;> simp [hp]
    simp [readWord, hi, hd, hq, hs, hnone]
  exact ofChars_cons hb hread

/-- Digits are read as a number, if it is not too large. -/
theorem ofChars_digits {digits : List Char} (hn : digits ≠ [])
    (hd : ∀ d ∈ digits, d.isDigit = true) (hrest : ∀ d ∈ rest.head?, d.isDigit = false ∧ d ≠ '.')
    (start : Nat) :
    ofChars start (digits ++ rest) =
      match Decimal.readInt64? digits with
      | some i => (ofChars (start + digits.length) rest).map
        (⟨.int i, ⟨start, start + digits.length⟩⟩ :: ·)
      | none => .error (malformed (.integerRange (String.ofList digits)) start
        (start + digits.length)) := by
  obtain ⟨c, more, rfl⟩ := List.exists_cons_of_ne_nil hn
  have hc : c.isDigit = true := hd c List.mem_cons_self
  have hlength : start + (c :: more).length = start + 1 + more.length := by
    rw [List.length_cons, Nat.add_assoc, Nat.add_comm 1]
  have hread : readWord start c (more ++ rest) =
      match Decimal.readInt64? (c :: more) with
      | some i => .ok (.int i, more.length)
      | none => .error (malformed (.integerRange (String.ofList (c :: more))) start
        (start + (c :: more).length)) := by
    unfold readWord
    rw [if_neg (by simp [isIdentStart_of_isDigit hc]), if_pos hc, number_digits hrest hd]
    cases Decimal.readInt64? (c :: more) <;> simp
  rw [List.cons_append]
  cases hi : Decimal.readInt64? (c :: more) with
  | some i =>
    rw [hi] at hread
    rw [ofChars_cons (isBlank_of_isDigit hc) hread, List.drop_left, hlength]
  | none =>
    rw [hi] at hread
    rw [ofChars, if_neg (by simp [isBlank_of_isDigit hc]), hread]

/-! ### Reading a name off the parameter -/

/-- The lexemes of `x => x.`. -/
def lead : List Lexeme :=
  [⟨.ident "x", ⟨0, 1⟩⟩, ⟨.symbol .arrow, ⟨2, 4⟩⟩, ⟨.ident "x", ⟨5, 6⟩⟩, ⟨.symbol .dot, ⟨6, 7⟩⟩]

theorem ofChars_lead (text : List Char) :
    ofChars 0 ("x => x.".toList ++ text) = (ofChars 7 text).map (lead ++ ·) := by
  have hx : isIdentStart 'x' = true := by decide +kernel
  have hstop : [' ', '.'].all (!isIdentPart ·) = true := by decide +kernel
  have hspace : Text.isBlank ' ' = true := by decide
  have hident : ∀ start d rest, d ∈ [' ', '.'] → ofChars start ('x' :: d :: rest) =
      (ofChars (start + 1) (d :: rest)).map (⟨.ident "x", ⟨start, start + 1⟩⟩ :: ·) :=
    fun start d rest hd =>
      ofChars_ident hx (List.forall_mem_nil _) (by simpa using List.all_eq_true.1 hstop d hd) start
  have hblank : ∀ start rest, ofChars start (' ' :: rest) = ofChars (start + 1) rest :=
    fun start rest => by rw [ofChars, if_pos hspace]
  have harrow : ∀ start rest, ofChars start ('=' :: '>' :: rest) =
      (ofChars (start + 2) rest).map (⟨.symbol .arrow, ⟨start, start + 2⟩⟩ :: ·) :=
    fun start rest => by
      have hread : readWord start '=' ('>' :: rest) = .ok (.symbol .arrow, 1) := by
        unfold readWord
        rw [if_neg (by decide +kernel), if_neg (by decide), if_neg (by decide)]
        rfl
      exact ofChars_cons (by decide) hread
  have hdot : ∀ start rest, ofChars start ('.' :: rest) =
      (ofChars (start + 1) rest).map (⟨.symbol .dot, ⟨start, start + 1⟩⟩ :: ·) :=
    fun start rest => ofChars_symbol rfl (by simp [Symbol.ofPair?]) start
  show ofChars 0 ('x' :: ' ' :: '=' :: '>' :: ' ' :: 'x' :: '.' :: text) = _
  rw [hident _ _ _ (by simp), hblank, harrow, hblank, hident _ _ _ (by simp), hdot]
  cases ofChars 7 text <;> rfl

variable {name digits : String}

theorem ofChars_name (h : Name.isValid name = true) (hb : '[' ∉ name.toList)
    (hrest : ∀ d ∈ rest.head?, isIdentPart d = false) (start : Nat) :
    ofChars start (name.toList ++ rest) =
      (ofChars (start + name.toList.length) rest).map
        (⟨.ident name, ⟨start, start + name.toList.length⟩⟩ :: ·) := by
  obtain ⟨c, more, hname, hc, hmore⟩ := Name.exists_letter h hb
  have hstart : isIdentStart c = true := by
    simp [isIdentStart, Text.isAlphabetic_of_isLetter hc]
  have hread := ofChars_ident hstart (fun d hd => isIdentPart_of_isPart (hmore d hd)) hrest start
  rw [← hname, String.ofList_toList] at hread
  rw [hname, List.cons_append, hread, List.length_cons, Nat.add_assoc, Nat.add_comm 1]

theorem ofText_member (h : Name.isValid name = true) (hb : '[' ∉ name.toList) :
    ofText ("x => x." ++ name) = .ok (lead ++ [⟨.ident name, ⟨7, 7 + name.toList.length⟩⟩]) := by
  have hend : ∀ d ∈ ([] : List Char).head?, isIdentPart d = false := nofun
  have hname := ofChars_name h hb hend 7
  rw [List.append_nil] at hname
  unfold ofText
  rw [String.toList_append, ofChars_lead, hname, ofChars]
  rfl

/-- The lexemes of a name with an index. -/
def ofIndexed (name : String) (i : Int64) (length : Nat) : List Lexeme :=
  let stop := 7 + name.toList.length
  [⟨.ident name, ⟨7, stop⟩⟩, ⟨.symbol .openBracket, ⟨stop, stop + 1⟩⟩,
    ⟨.int i, ⟨stop + 1, stop + 1 + length⟩⟩,
    ⟨.symbol .closeBracket, ⟨stop + 1 + length, stop + 1 + length + 1⟩⟩]

theorem ofText_index (h : Name.isValid name = true) (hb : '[' ∉ name.toList)
    (hd : digits.toList ≠ []) (hdigits : ∀ c ∈ digits.toList, c.isDigit = true) :
    ofText ("x => x." ++ Name.indexed name digits) =
      match Decimal.readInt64? digits.toList with
      | some i => .ok (lead ++ ofIndexed name i digits.toList.length)
      | none => .error (malformed (.integerRange digits) (7 + name.toList.length + 1)
        (7 + name.toList.length + 1 + digits.toList.length)) := by
  have hstop : ∀ d ∈ ([']'] : List Char).head?, d.isDigit = false ∧ d ≠ '.' := by simp
  have hbracket : ∀ d ∈ ('[' :: (digits.toList ++ [']'])).head?, isIdentPart d = false := by
    have hno : isIdentPart '[' = false := by decide +kernel
    simpa using hno
  unfold ofText
  rw [String.toList_append, ofChars_lead, Name.toList_indexed, ofChars_name h hb hbracket,
    ofChars_symbol rfl (by simp [Symbol.ofPair?]), ofChars_digits hd hdigits hstop,
    String.ofList_toList]
  cases Decimal.readInt64? digits.toList with
  | some i =>
    dsimp only
    rw [ofChars_symbol rfl (by simp [Symbol.ofPair?]), ofChars]
    rfl
  | none => rfl

end Lexeme

/-! ### Both ways -/

/-- The name, read off the parameter of `x => x.name`. -/
def Expr.off (name : String) : Expr :=
  .member (.ident "x" ⟨5, 6⟩) name ⟨7, 7 + name.toList.length⟩

theorem Expr.derives_off (name : String) :
    Derives .postfixed
      [⟨.ident "x", ⟨5, 6⟩⟩, ⟨.symbol .dot, ⟨6, 7⟩⟩, ⟨.ident name, ⟨7, 7 + name.toList.length⟩⟩]
      [off name] :=
  .member name (.ofPrimary (.named "x" ⟨5, 6⟩))

theorem Expr.derives_index (name : String) (i : Int64) (before position behind : Span) :
    Derives .postfixed
      [⟨.ident "x", ⟨5, 6⟩⟩, ⟨.symbol .dot, ⟨6, 7⟩⟩, ⟨.ident name, ⟨7, 7 + name.toList.length⟩⟩,
        ⟨.symbol .openBracket, before⟩, ⟨.int i, position⟩, ⟨.symbol .closeBracket, behind⟩]
      [.index (off name) (.literal (.int i)) position] := by
  have hindex : Derives .choice [⟨.int i, position⟩] [.literal (.int i)] :=
    Derives.of_le (Nat.zero_le 10) (Nat.le_refl 10) (.int i position)
  exact (derives_off name).index hindex

theorem Expr.eval_off (name : String) (vars : Variables) :
    (off name).eval "x" vars = .ok ((vars.get? name).getD .null) := by
  simp [off, eval, isParam]

namespace Lambda
variable {name digits : String}

theorem parse_member (h : Name.isValid name = true) (hb : '[' ∉ name.toList) :
    parse ("x => x." ++ name) = .ok ⟨"x", .off name⟩ :=
  parse_eq_ok_iff.2 ⟨_, Lexeme.ofText_member h hb, _, _, _,
    Expr.Derives.of_le (Nat.zero_le 9) (Nat.le_succ 9) (Expr.derives_off name),
    .inl rfl⟩

theorem parse_index (h : Name.isValid name = true) (hb : '[' ∉ name.toList)
    (hd : digits.toList ≠ []) (hdigits : ∀ c ∈ digits.toList, c.isDigit = true) {i : Int64}
    (hi : Decimal.readInt64? digits.toList = some i) :
    ∃ span, parse ("x => x." ++ Name.indexed name digits) =
      .ok ⟨"x", .index (.off name) (.literal (.int i)) span⟩ := by
  have htext := Lexeme.ofText_index h hb hd hdigits
  rw [hi] at htext
  exact ⟨_, parse_eq_ok_iff.2 ⟨_, htext, _, _, _,
    Expr.Derives.of_le (Nat.zero_le 9) (Nat.le_succ 9)
      (Expr.derives_index name i ..), .inl rfl⟩⟩

/-- The index of an expression must be a number of 64 bits. -/
theorem parse_index_of_large (h : Name.isValid name = true) (hb : '[' ∉ name.toList)
    (hd : digits.toList ≠ []) (hdigits : ∀ c ∈ digits.toList, c.isDigit = true)
    (hi : Decimal.readInt64? digits.toList = none) :
    ∃ e, parse ("x => x." ++ Name.indexed name digits) = .error e := by
  have htext := Lexeme.ofText_index h hb hd hdigits
  rw [hi] at htext
  unfold parse
  rw [htext]
  exact ⟨_, rfl⟩

end Lambda

/-- A value that is not there has no elements. -/
theorem Value.toOption_element_getD (value : Option Value) (i : Int64) :
    ((value.getD .null).element i).toOption =
      value.bind fun value => (value.element i).toOption := by
  cases value <;> rfl

theorem Eval.toOption_eq_some_iff {α : Type} {x : Eval α} {a : α} :
    x.toOption = some a ↔ x = .ok a := by
  cases x <;> simp [Except.toOption]

theorem Eval.within_eq_ok_iff {α : Type} {x : Eval α} {a : α} {place : Span} :
    x.within place = .ok a ↔ x = .ok a := by
  cases x <;> simp [Eval.within, Except.mapError]

namespace Evaluator
variable {name digits : String}

/-- A text without blanks around it is read as it is. -/
theorem standard_of_tight {text : String} (h : Text.Tight text.toList) (vars : Variables) :
    standard text vars = (Lambda.parse text).bind (·.eval vars) := by
  unfold standard
  rw [h.trim_eq, String.ofList_toList]
  rfl

theorem tight_lead {text : String} (h : Text.Tight text.toList) :
    Text.Tight ("x => x." ++ text).toList := by
  have hx : Text.Tight ['x'] := Text.Solid.tight (by decide) (by decide)
  rw [String.toList_append]
  exact hx.append h " => x.".toList

/-- **Names and expressions look up alike.** What is read off the parameter by a name without an index
is the value of the name, or no value where it has none. And where a name with an index is not bound
itself, it has a value just if an expression with that index has it: be it an element of a list or a
character of a text, with zeros in front of the index or not; and if the index is too large for the
value or for a number, or the value has no elements or is not there, there is none either way. -/
theorem standard_eq_get? (vars : Variables) (hn : Name.isValid name = true)
    (hb : '[' ∉ name.toList) (hd : digits.toList ≠ [])
    (hdigits : ∀ c ∈ digits.toList, c.isDigit = true) :
    standard ("x => x." ++ name) vars = .ok ((vars.get? name).getD .null) ∧
      (vars.bound? (Name.indexed name digits) = none → ∀ v,
        vars.get? (Name.indexed name digits) = some v ↔
          standard ("x => x." ++ Name.indexed name digits) vars = .ok v) := by
  have hname : Text.Tight name.toList :=
    (Name.plain_of_isValid hn).2.tight (Name.forall_mem_of_isValid hn).1
  constructor
  · rw [standard_of_tight (tight_lead hname), Lambda.parse_member hn hb]
    exact Expr.eval_off name vars
  · intro hu v
    have hclose : Text.Tight [']'] := Text.Solid.tight (by decide) (by decide)
    have hindexed : Text.Tight (Name.indexed name digits).toList := by
      have htight := hname.append hclose ('[' :: digits.toList)
      rwa [List.append_assoc, List.cons_append, ← Name.toList_indexed] at htight
    rw [standard_of_tight (tight_lead hindexed), Variables.get?_indexed hn hd hdigits hu,
      ← Variables.get?_of_isValid hn hb]
    cases hi : Decimal.readInt64? digits.toList with
    | none =>
      obtain ⟨e, hparse⟩ := Lambda.parse_index_of_large hn hb hd hdigits hi
      simp [hparse, Except.bind]
    | some i =>
      obtain ⟨span, hparse⟩ := Lambda.parse_index hn hb hd hdigits hi
      have heval : (Expr.index (.off name) (.literal (.int i)) span).eval "x" vars =
          (((vars.get? name).getD .null).element i).within span := by
        simp only [Expr.eval, Expr.eval_off]
        rfl
      rw [hparse]
      show _ ↔ (Expr.index (.off name) (.literal (.int i)) span).eval "x" vars = .ok v
      rw [heval, Eval.within_eq_ok_iff, ← Eval.toOption_eq_some_iff, Value.toOption_element_getD]
      rfl

/-- The second character of a text, by an index with a zero in front. -/
theorem standard_eq_get?_of_text :
    let vars : Variables := { bindings := [("größe", .str "äöü")] }
    Name.isValid "größe" = true ∧ '[' ∉ "größe".toList ∧ "01".toList ≠ [] ∧
      (∀ c ∈ "01".toList, c.isDigit = true) ∧ vars.bound? "größe[01]" = none ∧
      standard "x => x.größe" vars = .ok (.str "äöü") ∧
      standard "x => x.größe[01]" vars = .ok (.str "ö") := by
  intro vars
  have hn : Name.isValid "größe" = true := by decide +kernel
  have hb : '[' ∉ "größe".toList := by decide
  have hd : "01".toList ≠ [] := by decide
  have hdigits : ∀ c ∈ "01".toList, c.isDigit = true := List.all_eq_true.1 (by decide)
  obtain ⟨hname, hindexed⟩ := standard_eq_get? vars hn hb hd hdigits
  exact ⟨hn, hb, hd, hdigits, rfl, hname, (hindexed rfl _).1 rfl⟩

end Evaluator

end Stencil
