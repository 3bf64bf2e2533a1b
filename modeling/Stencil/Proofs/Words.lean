import Mathlib.Data.List.Basic
import Mathlib.Data.List.TakeDrop
import Mathlib.Data.List.TakeWhile
import Stencil.Expr.Lexeme
import Stencil.Name
import Stencil.Text.Case
import Stencil.Token

/-! Words and the blanks around them.

A text that begins and ends with a character other than a blank (`Tight`) is what trimming leaves of it
with blanks around it (`trim_append`), and a word is cut off in front of a blank (`firstWord_append`).
No character of a name or an identifier is a blank, and no keyword has a colon or a bracket in it, in
whatever case it is written. -/
namespace Stencil.Text
variable {lead core trail front back : List Char} {c : Char}

/-! ### Trimming -/

def Blank (text : List Char) : Prop :=
  ∀ c ∈ text, isBlank c = true

theorem blank_nil : Blank [] :=
  fun _ hc => absurd hc List.not_mem_nil

/-- The text begins and ends with a character other than a blank. -/
structure Tight (text : List Char) : Prop where
  ne_nil : text ≠ []
  head : ∀ c ∈ text.head?, isBlank c = false
  last : ∀ c ∈ text.getLast?, isBlank c = false

def Solid (text : List Char) : Prop :=
  ∀ c ∈ text, isBlank c = false

instance (text : List Char) : Decidable (Solid text) :=
  List.decidableBAll _ text

theorem Solid.tight (h : Solid core) (hn : core ≠ []) : Tight core where
  ne_nil := hn
  head c hc := h c (List.mem_of_mem_head? hc)
  last c hc := h c (List.mem_of_getLast? hc)

/-- Between two texts there may be blanks. -/
theorem Tight.append (hf : Tight front) (hb : Tight back) (middle : List Char) :
    Tight (front ++ middle ++ back) where
  ne_nil hn := hb.ne_nil (List.append_eq_nil_iff.1 hn).2
  head c hc := by
    rw [List.append_assoc, List.head?_append_of_ne_nil _ hf.ne_nil] at hc
    exact hf.head c hc
  last c hc := by
    rw [List.getLast?_append_of_ne_nil _ hb.ne_nil] at hc
    exact hb.last c hc

theorem dropWhile_blank (hl : Blank lead) (hn : core ≠ []) (h : ∀ c ∈ core.head?, isBlank c = false)
    (rest : List Char) : (lead ++ (core ++ rest)).dropWhile isBlank = core ++ rest := by
  rw [List.dropWhile_append_of_pos hl]
  cases core with
  | nil => exact absurd rfl hn
  | cons c core => exact List.dropWhile_cons_of_neg (Bool.eq_false_iff.1 (h c rfl))

/-- **Trimming takes off the blanks around a text** that has none at its ends. -/
theorem trim_append (hl : Blank lead) (h : Tight core) (ht : Blank trail) :
    trim (lead ++ core ++ trail) = core := by
  have hstart : trimStart (lead ++ core ++ trail) = core ++ trail := by
    rw [List.append_assoc]
    exact dropWhile_blank hl h.ne_nil h.head trail
  have hblank : Blank trail.reverse := fun c hc => ht c (List.mem_reverse.1 hc)
  have hend : (trail.reverse ++ (core.reverse ++ [])).dropWhile isBlank = core.reverse ++ [] :=
    dropWhile_blank hblank (fun hn => h.ne_nil (List.reverse_eq_nil_iff.1 hn))
      (fun c hc => h.last c (by rwa [List.head?_reverse] at hc)) []
  unfold trim trimEnd
  rw [hstart, List.reverse_append, ← List.append_nil core.reverse, hend, List.append_nil,
    List.reverse_reverse]

/-- A text without blanks at its ends is left as it is. -/
theorem Tight.trim_eq (h : Tight core) : trim core = core := by
  have htrim := trim_append blank_nil h blank_nil
  rwa [List.nil_append, List.append_nil] at htrim

/-- What is behind the last character other than a blank can be taken off. -/
theorem exists_blank_trail (text : List Char) : ∃ core trail, text = core ++ trail ∧ Blank trail ∧
    ∀ c ∈ core.getLast?, isBlank c = false := by
  induction text with
  | nil => exact ⟨[], [], rfl, blank_nil, nofun⟩
  | cons c text ih =>
    obtain ⟨core, trail, rfl, hblank, hlast⟩ := ih
    cases core with
    | nil =>
      cases hc : isBlank c with
      | true => exact ⟨[], c :: trail, rfl, List.forall_mem_cons.2 ⟨hc, hblank⟩, nofun⟩
      | false =>
        refine ⟨[c], trail, rfl, hblank, fun d hd => ?_⟩
        cases hd
        exact hc
    | cons d core => exact ⟨c :: d :: core, trail, rfl, hblank, hlast⟩

/-- A text is blank, or there are blanks around a text without any at its ends. -/
theorem blank_or_exists_tight (text : List Char) : Blank text ∨
    ∃ lead core trail, text = lead ++ core ++ trail ∧ Blank lead ∧ Tight core ∧ Blank trail := by
  obtain ⟨front, trail, rfl, htrail, hlast⟩ := exists_blank_trail text
  have hsplit := List.takeWhile_append_dropWhile (p := isBlank) (l := front)
  have hlead : Blank (front.takeWhile isBlank) := fun c hc => List.mem_takeWhile_imp hc
  cases hcore : front.dropWhile isBlank with
  | nil =>
    rw [hcore, List.append_nil] at hsplit
    exact .inl fun c hc => (List.mem_append.1 hc).elim (fun hc => hlead c (hsplit.symm ▸ hc)) (htrail c)
  | cons c core =>
    rw [hcore] at hsplit
    have hn := List.cons_ne_nil c core
    refine .inr ⟨_, c :: core, trail, by rw [hsplit], hlead,
      ⟨hn, fun d hd => ?_, fun d hd => ?_⟩, htrail⟩
    · have hhead := List.head?_dropWhile_not isBlank front
      rw [hcore] at hhead
      cases hd
      simpa using hhead
    · refine hlast d ?_
      rwa [← hsplit, List.getLast?_append_of_ne_nil _ hn]

/-- Of blanks nothing is left. -/
theorem trim_of_blank (h : Blank core) : trim core = [] := by
  unfold trim trimStart
  rw [List.dropWhile_eq_nil_iff.2 h]
  rfl

/-! ### The first word -/

/-- A word ends in front of the first blank. -/
theorem firstWord_append (hf : Solid front) (hc : isBlank c = true)
    (rest : List Char) : firstWord (front ++ c :: rest) = (front, c :: rest) := by
  have hfront : ∀ d ∈ front, (!isBlank d) = true := fun d hd => by rw [hf d hd]; rfl
  have hstop : ¬(!isBlank c) = true := by rw [hc]; exact Bool.false_ne_true
  unfold firstWord
  rw [List.span_eq_takeWhile_dropWhile, List.takeWhile_append_of_pos hfront,
    List.dropWhile_append_of_pos hfront, List.takeWhile_cons_of_neg (p := fun d => !isBlank d) hstop,
    List.dropWhile_cons_of_neg (p := fun d => !isBlank d) hstop, List.append_nil]

/-- What a text begins with belongs to its first word, if there is no blank in it. -/
theorem mem_firstWord (hf : Solid front) (hc : c ∈ front) (rest : List Char) :
    c ∈ (firstWord (front ++ rest)).1 := by
  have hfront : ∀ d ∈ front, (!isBlank d) = true := fun d hd => by rw [hf d hd]; rfl
  unfold firstWord
  rw [List.span_eq_takeWhile_dropWhile, List.takeWhile_append_of_pos hfront]
  exact List.mem_append_left _ hc

/-- The characters that stand between the parts of a name or behind it, in lower case. -/
theorem mem_lowerAfter {sign : Char} (hs : sign ∈ [':', '[']) {text : List Char} (h : sign ∈ text)
    (before : List Char) : sign ∈ lowerAfter before text := by
  induction text generalizing before with
  | nil => exact absurd h List.not_mem_nil
  | cons c rest ih =>
    rcases List.mem_cons.1 h with rfl | hrest
    · refine List.mem_append_left _ ?_
      rcases List.mem_pair.1 hs with rfl | rfl <;> exact List.mem_singleton.2 rfl
    · exact List.mem_append_right _ (ih hrest (c :: before))

end Stencil.Text

namespace Stencil

theorem Token.Kind.notMem_of_ofKeyword? {word : String} {kind : Token.Kind} {sign : Char}
    (h : Token.Kind.ofKeyword? word = some kind) (hs : sign ∈ [':', '[']) : sign ∉ word.toList := by
  unfold Token.Kind.ofKeyword? at h
  rcases List.mem_pair.1 hs with rfl | rfl
  all_goals
    split at h
    all_goals cases h <;> simp

/-- A word with a colon or a bracket in it is no keyword. -/
theorem Token.Kind.ofKeyword?_lower {word : List Char} {sign : Char} (hs : sign ∈ [':', '['])
    (h : sign ∈ word) : Token.Kind.ofKeyword? (String.ofList (Text.lower word)) = none := by
  cases hk : Token.Kind.ofKeyword? (String.ofList (Text.lower word)) with
  | none => rfl
  | some kind =>
    refine absurd ?_ (Token.Kind.notMem_of_ofKeyword? hk hs)
    rw [String.toList_ofList]
    exact Text.mem_lowerAfter hs h []

/-! ### Names and identifiers -/

def Text.blankCodes : List Nat :=
  [0x20, 0x85, 0xA0, 0x1680, 0x2028, 0x2029, 0x202F, 0x205F, 0x3000] ++ List.range' 0x09 5 ++
    List.range' 0x2000 11

theorem Text.mem_blankCodes {c : Char} (h : isBlank c = true) : c.toNat ∈ blankCodes := by
  simp only [isBlank, CodeRanges.contains, blankRanges, Bool.or_eq_true, Bool.and_eq_true,
    decide_eq_true_eq, List.any_cons, List.any_nil, Bool.false_eq_true, or_false] at h
  simp only [blankCodes, List.mem_append, List.mem_cons, List.mem_range'_1]
  rcases h with (rfl | ⟨hlow, hhigh⟩) | h
  · exact .inl (.inl (.inl rfl))
  · have hlow : 9 ≤ c.toNat := hlow
    have hhigh : c.toNat ≤ 13 := hhigh
    omega
  · omega

/-- A character of an identifier is no blank. -/
theorem Lexeme.isBlank_of_isIdentPart {c : Char} (h : isIdentPart c = true) :
    Text.isBlank c = false := by
  have hcodes : Text.blankCodes.all (fun n => !isIdentPart (Char.ofNat n)) = true := by
    decide +kernel
  refine Bool.eq_false_iff.2 fun hb => ?_
  have hc := List.all_eq_true.1 hcodes c.toNat (Text.mem_blankCodes hb)
  rw [Char.ofNat_toNat, h] at hc
  cases hc

theorem Lexeme.isIdentPart_of_isIdentStart {c : Char} (h : isIdentStart c = true) :
    isIdentPart c = true := by
  unfold isIdentStart isIdentPart Text.isAlphanumeric at *
  rw [Bool.or_eq_true] at h
  rcases h with h | h
  · rw [h]
    rfl
  · rw [h, Bool.or_true]

theorem Lexeme.isIdentPart_of_isPart {c : Char} (h : Name.isPart c = true) : isIdentPart c = true := by
  unfold Name.isPart at h
  unfold isIdentPart
  rw [Bool.or_eq_true, Bool.or_eq_true] at h
  rcases h with (h | h) | h
  · rw [Text.isAlphanumeric, Text.isAlphabetic_of_isLetter h]
    rfl
  · rw [Text.isAlphanumeric_of_isDecimalDigit h]
    rfl
  · rw [h, Bool.or_true]

theorem Lexeme.isIdentPart_of_isDigit {c : Char} (h : c.isDigit = true) : isIdentPart c = true := by
  refine isIdentPart_of_isPart ?_
  unfold Name.isPart Text.isDecimalDigit
  rw [h]
  exact Bool.or_eq_true_iff.2 (.inl (Bool.or_true _))

theorem Name.forall_mem_of_isIndex {text : List Char} (h : isIndex text = true) :
    ∀ c ∈ text, Lexeme.isIdentPart c = true ∨ c = '[' ∨ c = ']' := by
  unfold isIndex at h
  split at h
  · next rest =>
    dsimp only at h
    obtain ⟨_, hclose⟩ := Bool.and_eq_true_iff.1 h
    refine List.forall_mem_cons.2 ⟨.inr (.inl rfl), fun c hc => ?_⟩
    rw [← List.takeWhile_append_dropWhile (p := Char.isDigit) (l := rest), beq_iff_eq.1 hclose] at hc
    rcases List.mem_append.1 hc with hdigit | hlast
    · exact .inl (Lexeme.isIdentPart_of_isDigit (List.mem_takeWhile_imp hdigit))
    · exact .inr (.inr (List.mem_singleton.1 hlast))
  · cases h

/-- A name is made of characters of identifiers, and of brackets. -/
theorem Name.forall_mem_of_isValid {name : String} (h : isValid name = true) :
    name.toList ≠ [] ∧ ∀ c ∈ name.toList, Lexeme.isIdentPart c = true ∨ c = '[' ∨ c = ']' := by
  unfold isValid at h
  split at h
  · cases h
  · next c rest hname =>
    obtain ⟨hletter, htail⟩ := Bool.and_eq_true_iff.1 h
    have hc : Lexeme.isIdentPart c = true := by
      refine Lexeme.isIdentPart_of_isPart ?_
      rw [isPart, hletter]
      rfl
    have hparts : ∀ d ∈ rest.takeWhile isPart, Lexeme.isIdentPart d = true ∨ d = '[' ∨ d = ']' :=
      fun d hd => .inl (Lexeme.isIdentPart_of_isPart (List.mem_takeWhile_imp hd))
    have hindex : ∀ d ∈ rest.dropWhile isPart, Lexeme.isIdentPart d = true ∨ d = '[' ∨ d = ']' := by
      split at htail
      · next hnil =>
        rw [hnil]
        exact fun _ hd => absurd hd List.not_mem_nil
      · exact forall_mem_of_isIndex htail
    rw [hname]
    refine ⟨List.cons_ne_nil _ _, List.forall_mem_cons.2 ⟨.inl hc, fun d hd => ?_⟩⟩
    rw [← List.takeWhile_append_dropWhile (p := isPart) (l := rest)] at hd
    exact (List.mem_append.1 hd).elim (hparts d) (hindex d)

/-! ### Signs -/

/-- The characters that tell the parts of a token from each other. -/
def Text.signs : List Char :=
  ['"', ':', '=', '>', '!', '<', '%', '$', '{', '}']

/-- There is no sign in the text. -/
def Text.Plain (text : List Char) : Prop :=
  ∀ c ∈ text, c ∉ signs

instance (text : List Char) : Decidable (Text.Plain text) :=
  List.decidableBAll _ text

theorem Text.Plain.append {front back : List Char} (hf : Plain front) (hb : Plain back) :
    Plain (front ++ back) :=
  fun c hc => (List.mem_append.1 hc).elim (hf c) (hb c)

theorem Text.notMem_signs_of_isBlank {c : Char} (h : isBlank c = true) : c ∉ signs := by
  have hsigns : Solid signs := by decide +kernel
  intro hc
  rw [hsigns c hc] at h
  cases h

theorem Text.Blank.plain {text : List Char} (h : Blank text) : Plain text :=
  fun c hc => notMem_signs_of_isBlank (h c hc)

theorem Text.notMem_signs_of_isIdentPart {c : Char} (h : Lexeme.isIdentPart c = true) :
    c ∉ signs := by
  have hsigns : signs.all (fun d => !Lexeme.isIdentPart d) = true := by decide +kernel
  intro hc
  have hno := List.all_eq_true.1 hsigns c hc
  rw [h] at hno
  cases hno

/-- There is neither a sign nor a blank in a name. -/
theorem Name.plain_of_isValid {name : String} (h : isValid name = true) :
    Text.Plain name.toList ∧ Text.Solid name.toList := by
  obtain ⟨-, hchars⟩ := forall_mem_of_isValid h
  constructor
  · intro c hc
    obtain hpart | rfl | rfl := hchars c hc
    · exact Text.notMem_signs_of_isIdentPart hpart
    · decide
    · decide
  · intro c hc
    obtain hpart | rfl | rfl := hchars c hc
    · exact Lexeme.isBlank_of_isIdentPart hpart
    · decide
    · decide

end Stencil
