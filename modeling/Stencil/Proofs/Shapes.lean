import Stencil.Proofs.Closing
import Stencil.Proofs.Frame
import Stencil.Proofs.Records
import Stencil.Proofs.Words

/-! What tokens can look like.

A token is read off the text between its delimiters, and what it names or evaluates stands in this text. A
name is acceptable (`Token.Grammar.Names`), and the text of an expression has an arrow outside quotes and no
blanks at its ends (`Token.Expresses`). Each part of the reader keeps to this
(`Token.Grammar.formed_read`). The record of a token could hold any kind, mode, name and text beside each
other. As it is filled in from a text, they go together in a few ways only
(`Token.wellFormed_of_classify`). -/
namespace Stencil

namespace Text
variable {text : List Char}

/-- What trimming leaves is nothing, or a text without blanks at its ends that stands in the whole. -/
theorem trim_cases (text : List Char) :
    trim text = [] ∧ Blank text ∨ Tight (trim text) ∧ trim text <:+: text := by
  rcases blank_or_exists_tight text with hblank | ⟨lead, core, trail, rfl, hlead, hcore, htrail⟩
  · exact .inl ⟨trim_of_blank hblank, hblank⟩
  · rw [trim_append hlead hcore htrail]
    exact .inr ⟨hcore, lead, trail, rfl⟩

theorem trim_isInfix (text : List Char) : trim text <:+: text := by
  rcases trim_cases text with ⟨hnil, -⟩ | ⟨-, hinfix⟩
  · rw [hnil]
    exact List.nil_infix
  · exact hinfix

theorem tight_trim (h : trim text ≠ []) : Tight (trim text) := by
  rcases trim_cases text with ⟨hnil, -⟩ | ⟨htight, -⟩
  · exact absurd hnil h
  · exact htight

theorem trim_eq_nil_iff : trim text = [] ↔ Blank text := by
  refine ⟨fun h => ?_, trim_of_blank⟩
  rcases trim_cases text with ⟨-, hblank⟩ | ⟨htight, -⟩
  · exact hblank
  · exact absurd h htight.ne_nil

end Text

/-- Quotes are taken off the ends of a text. -/
theorem Quoting.strip_isInfix (text : List Char) : strip text <:+: text := by
  unfold strip
  split
  · split
    · exact (List.dropLast_prefix _).isInfix.trans (List.suffix_cons _ _).isInfix
    · exact List.infix_rfl
  · exact List.infix_rfl

namespace Token

/-! ### Names and expressions -/

/-- A text is an expression if an arrow stands in it outside quotes. -/
theorem isExpression_iff {text : List Char} :
    isExpression text = true ↔ ∃ n, Quoting.StandsAt arrow text n :=
  Quoting.isSome_findFrom_iff (by decide) (by decide) .outside

/-- An acceptable name that stands in the text. -/
structure Grammar.Names (g : Grammar) (raw : List Char) (name : String) : Prop where
  accepts : g.accepts name = true
  within : name.toList <:+: raw

/-- An expression that stands in the text: no blanks are at its ends, and an arrow is in it outside
quotes. -/
structure Expresses (raw : List Char) (text : String) : Prop where
  tight : Text.Tight text.toList
  arrow : ∃ n, Quoting.StandsAt arrow text.toList n
  within : text.toList <:+: raw

theorem expresses_trim {raw text : List Char} (hw : text <:+: raw)
    (he : isExpression (Text.trim text) = true) : Expresses raw (String.ofList (Text.trim text)) where
  tight := by
    rw [String.toList_ofList]
    refine Text.tight_trim fun hnil => ?_
    rw [hnil] at he
    cases he
  arrow := by
    rw [String.toList_ofList]
    exact isExpression_iff.1 he
  within := by
    rw [String.toList_ofList]
    exact (Text.trim_isInfix text).trans hw

theorem Kind.ofKeyword?_ne_empty (word : String) : ofKeyword? word ≠ some .empty := by
  unfold ofKeyword?
  split <;> simp

/-! ### What is read -/

/-- The condition asks about an acceptable name, or it is an expression. -/
def Condition.Formed (g : Grammar) (raw : List Char) : Condition → Prop
  | holds name => g.Names raw name
  | fails name => g.Names raw name
  | expression text => Expresses raw text

/-- What a name is defined as stands in the text. -/
def Meaning.Formed (raw : List Char) : Meaning → Prop
  | text written => written.toList <:+: raw
  | expression written => Expresses raw written

/-- Each name of a directive is acceptable, and each of its expressions is one. -/
def Directive.Formed (g : Grammar) (raw : List Char) : Directive → Prop
  | value name => g.Names raw name
  | expression text => Expresses raw text
  | define name meaning => g.Names raw name ∧ meaning.Formed raw
  | ifOpen condition => condition.Formed g raw
  | whileOpen condition => condition.Formed g raw
  | eachOpen name sequence => g.Names raw name ∧ Expresses raw sequence
  | _ => True

namespace Grammar
variable {g : Grammar} {raw text : List Char} {directive : Directive}

theorem names_of_name {name : String} (hw : text <:+: raw) (h : g.name text = .ok name) :
    g.Names raw name := by
  unfold Grammar.name at h
  dsimp only at h
  split at h
  · next ha =>
    cases h
    exact ⟨ha, by rwa [String.toList_ofList]⟩
  · cases h

theorem formed_condition {kind : Kind} {condition : Condition} (hw : text <:+: raw)
    (h : g.condition kind (Text.trim text) = .ok condition) : condition.Formed g raw := by
  have htrim := (Text.trim_isInfix text).trans hw
  unfold Grammar.condition at h
  split at h
  · cases h
  · next rest hrest =>
    have hnegated : Text.trim rest <:+: raw := by
      rw [hrest] at htrim
      exact (Text.trim_isInfix rest).trans ((List.suffix_cons '!' rest).isInfix.trans htrim)
    dsimp only at h
    split at h
    · cases h
    · obtain ⟨name, hname, rfl⟩ := exists_of_map_eq_ok h
      exact names_of_name hnegated hname
  · split at h
    · next he =>
      cases h
      exact expresses_trim hw he
    · obtain ⟨name, hname, rfl⟩ := exists_of_map_eq_ok h
      exact names_of_name htrim hname

theorem formed_sequence (hw : text <:+: raw) (h : g.sequence text = .ok directive) :
    directive.Formed g raw ∧ directive.kind = .eachOpen := by
  unfold sequence at h
  split at h
  · cases h
  · next n _ =>
    dsimp only at h
    split at h
    · next he =>
      obtain ⟨name, hname, rfl⟩ := exists_of_map_eq_ok h
      have hfront := (Text.trim_isInfix (text.take n)).trans ((List.take_prefix n text).isInfix.trans hw)
      have hback := (List.drop_suffix (n + 1) text).isInfix.trans hw
      exact ⟨⟨names_of_name hfront hname, expresses_trim hback he⟩, rfl⟩
    · cases h

theorem formed_meaning (hw : text <:+: raw) : (g.meaning (Text.trim text)).Formed raw := by
  have htrim := (Text.trim_isInfix text).trans hw
  unfold meaning
  split
  · next inner hu =>
    obtain ⟨hpair, -⟩ := CloseScan.recovers_of_unwrap? hu
    have hinner : inner <:+: raw := by
      rw [hpair] at htrim
      exact (List.infix_append g.left inner g.right).trans htrim
    dsimp only
    split
    · next he => exact expresses_trim hinner he
    · show (String.ofList (Text.trim text)).toList <:+: raw
      rwa [String.toList_ofList]
  · split
    · next he => exact expresses_trim hw he
    · show (String.ofList (Quoting.strip (Text.trim text))).toList <:+: raw
      rw [String.toList_ofList]
      exact (Quoting.strip_isInfix _).trans htrim

theorem formed_definition {n : Nat} (hw : text <:+: raw) (h : g.definition text n = .ok directive) :
    directive.Formed g raw ∧ directive.kind = .define := by
  obtain ⟨name, hname, rfl⟩ := exists_of_map_eq_ok h
  have hfront := (Text.trim_isInfix (text.take n)).trans ((List.take_prefix n text).isInfix.trans hw)
  have hback := (List.drop_suffix (n + 1) text).isInfix.trans hw
  exact ⟨⟨names_of_name hfront hname, formed_meaning hback⟩, rfl⟩

theorem eq_of_alone {kind : Kind} {mark : Directive} (h : alone kind text mark = .ok directive) :
    directive = mark := by
  unfold alone at h
  split at h
  · cases h
    rfl
  · cases h

/-- A directive has the kind that its keyword says. -/
theorem formed_directive {word : String} {kind : Kind} (hk : Kind.ofKeyword? word = some kind)
    (hw : text <:+: raw) (h : g.directive kind (Text.trim text) = .ok directive) :
    directive.Formed g raw ∧ directive.kind = kind := by
  unfold Kind.ofKeyword? at hk
  split at hk
  · cases hk
    obtain ⟨condition, hcondition, rfl⟩ := exists_of_map_eq_ok h
    exact ⟨formed_condition hw hcondition, rfl⟩
  · cases hk
    exact eq_of_alone h ▸ ⟨trivial, rfl⟩
  · cases hk
    exact eq_of_alone h ▸ ⟨trivial, rfl⟩
  · cases hk
    obtain ⟨condition, hcondition, rfl⟩ := exists_of_map_eq_ok h
    exact ⟨formed_condition hw hcondition, rfl⟩
  · cases hk
    exact eq_of_alone h ▸ ⟨trivial, rfl⟩
  · cases hk
    exact formed_sequence ((Text.trim_isInfix text).trans hw) h
  · cases hk
    exact eq_of_alone h ▸ ⟨trivial, rfl⟩
  · cases hk

/-- Without a keyword a token has a value or defines one. -/
theorem formed_valueOrDefinition (h : g.valueOrDefinition (Text.trim raw) = .ok directive) :
    directive.Formed g raw ∧ (directive.kind = .value ∨ directive.kind = .define) := by
  have htrim := Text.trim_isInfix raw
  have hexpression : ∀ m, Quoting.find? arrow (Text.trim raw) = some m →
      Expresses raw (String.ofList (Text.trim raw)) := fun m hm =>
    expresses_trim List.infix_rfl (by rw [isExpression, Quoting.occurs, hm]; rfl)
  have hdefinition : ∀ n, g.definition (Text.trim raw) n = .ok directive →
      directive.Formed g raw ∧ (directive.kind = .value ∨ directive.kind = .define) := fun n hn =>
    ⟨(formed_definition htrim hn).1, .inr (formed_definition htrim hn).2⟩
  unfold valueOrDefinition at h
  split at h
  · next n m _ hm =>
    split at h
    · exact hdefinition n h
    · cases h
      exact ⟨hexpression m hm, .inl rfl⟩
  · next n _ _ => exact hdefinition n h
  · next m _ hm =>
    cases h
    exact ⟨hexpression m hm, .inl rfl⟩
  · obtain ⟨name, hname, rfl⟩ := exists_of_map_eq_ok h
    exact ⟨names_of_name htrim hname, .inl rfl⟩

/-- **What is read is well formed**, and it is empty just if nothing but blanks stands there. -/
theorem formed_read (h : g.read raw = .ok directive) :
    directive.Formed g raw ∧ (directive.kind = .empty ↔ Text.Blank raw) := by
  unfold Grammar.read at h
  dsimp only at h
  rw [← Text.trim_eq_nil_iff, ← List.isEmpty_iff]
  split at h
  · next hempty =>
    cases h
    exact ⟨trivial, fun _ => hempty, fun _ => rfl⟩
  · next hne =>
    have hkind : ∀ kind, kind ≠ .empty → directive.kind = kind →
        (directive.kind = .empty ↔ (Text.trim raw).isEmpty = true) := fun kind hk he =>
      ⟨fun hc => absurd (he.symm.trans hc) hk, fun hc => absurd hc hne⟩
    split at h
    · next kind hk =>
      have hrest : (Text.firstWord (Text.trim raw)).2 <:+: raw := by
        rw [Text.firstWord, List.span_eq_takeWhile_dropWhile]
        exact (List.dropWhile_suffix _).isInfix.trans (Text.trim_isInfix raw)
      obtain ⟨hformed, he⟩ := formed_directive hk hrest h
      exact ⟨hformed, hkind kind (fun hc => Kind.ofKeyword?_ne_empty _ (hc ▸ hk)) he⟩
    · obtain ⟨hformed, he | he⟩ := formed_valueOrDefinition h
      · exact ⟨hformed, hkind .value (by decide) he⟩
      · exact ⟨hformed, hkind .define (by decide) he⟩

theorem length_of_classify {id : Nat} {token : Token} (h : g.classify id raw = .ok token) :
    token.length = raw.length := by
  unfold classify at h
  split at h
  · cases h
    rfl
  · cases h

end Grammar

/-! ### Tokens -/

theorem Meaning.Formed.within {raw : List Char} {meaning : Meaning} (h : meaning.Formed raw) :
    meaning.source.toList <:+: raw := by
  cases meaning with
  | text written => exact h
  | expression written => exact Expresses.within h

section
variable {g : Grammar} {raw : List Char}

theorem Condition.Formed.expression {condition : Condition} (h : condition.Formed g raw)
    (hm : condition.mode = .expression) :
    condition.expression? = some condition.subject ∧ Expresses raw condition.subject := by
  cases condition with
  | holds name => cases hm
  | fails name => cases hm
  | expression text => exact ⟨rfl, h⟩

theorem Condition.Formed.asking {condition : Condition} (h : condition.Formed g raw)
    (hm : condition.mode ≠ .expression) :
    condition.expression? = none ∧ g.Names raw condition.subject := by
  cases condition with
  | holds name => exact ⟨rfl, h⟩
  | fails name => exact ⟨rfl, h⟩
  | expression text => exact absurd rfl hm

theorem Condition.mode_ne_plain (condition : Condition) : condition.mode ≠ .plain := by
  cases condition <;> simp [mode]

namespace Directive.Formed
variable {directive : Directive}

/-- What is evaluated is an expression; where it is written or decides, it stands for the name as well. -/
theorem expression (h : directive.Formed g raw) (hm : directive.mode = .expression) :
    ∃ text, directive.source? = some text ∧ Expresses raw text ∧
      (directive.kind ∈ [.value, .ifOpen, .whileOpen] → directive.name = text) := by
  cases directive with
  | expression text => exact ⟨text, rfl, h, fun _ => rfl⟩
  | define name meaning =>
    cases meaning with
    | text written => cases hm
    | expression written => exact ⟨written, rfl, h.2, by simp [kind]⟩
  | ifOpen condition =>
    obtain ⟨hsource, hexpresses⟩ := Condition.Formed.expression h hm
    exact ⟨condition.subject, hsource, hexpresses, fun _ => rfl⟩
  | whileOpen condition =>
    obtain ⟨hsource, hexpresses⟩ := Condition.Formed.expression h hm
    exact ⟨condition.subject, hsource, hexpresses, fun _ => rfl⟩
  | eachOpen name sequence => exact ⟨sequence, rfl, h.2, by simp [kind]⟩
  | _ => cases hm

/-- Only a condition asks whether a variable is truthy. -/
theorem asking (h : directive.Formed g raw) (hm : directive.mode = .truthy ∨ directive.mode = .falsy) :
    (directive.kind = .ifOpen ∨ directive.kind = .whileOpen) ∧ directive.source? = none ∧
      g.Names raw directive.name := by
  have hne : directive.mode ≠ .expression := by
    rcases hm with hm | hm <;> simp [hm]
  cases directive with
  | ifOpen condition => exact ⟨.inl rfl, Condition.Formed.asking h hne⟩
  | whileOpen condition => exact ⟨.inr rfl, Condition.Formed.asking h hne⟩
  | define name meaning =>
    cases meaning with
    | text written => simp [mode] at hm
    | expression written => exact absurd rfl hne
  | expression text => exact absurd rfl hne
  | eachOpen name sequence => exact absurd rfl hne
  | _ => simp [mode] at hm

end Directive.Formed

/-- What can be said of the record of a token whatever it is about: how its kind, its mode, its name and
its expression go together, and which of them stand in the text between the delimiters. -/
structure Record.WellFormed (g : Grammar) (raw : List Char) (r : Record) : Prop where
  length : r.length = raw.length
  empty_iff : r.kind = .empty ↔ Text.Blank raw
  expression : r.mode = .expression →
    ∃ text, r.expression = some text ∧ Expresses raw text ∧
      (r.kind ∈ [.value, .ifOpen, .whileOpen] → r.name = text)
  asking : r.mode = .truthy ∨ r.mode = .falsy →
    (r.kind = .ifOpen ∨ r.kind = .whileOpen) ∧ r.expression = none ∧ g.Names raw r.name
  condition : r.kind = .ifOpen ∨ r.kind = .whileOpen → r.mode ≠ .plain
  each : r.kind = .eachOpen → r.mode = .expression ∧ g.Names raw r.name
  define : r.kind = .define →
    (∃ text, r.expression = some text ∧ text.toList <:+: raw) ∧ g.Names raw r.name
  value : r.kind = .value → r.mode = .plain → r.expression = none ∧ g.Names raw r.name
  mark : r.kind ∈ [.elseMark, .ifClose, .whileClose, .eachClose, .empty] →
    r.name = "" ∧ r.mode = .plain ∧ r.expression = none

/-- **Tokens are well formed.** The record of a token is filled in field by field while its text is read,
and what is in it then goes together. -/
theorem wellFormed_of_classify {id : Nat} {token : Token} (h : g.classify id raw = .ok token) :
    g.fill id raw = .ok token.record ∧ token.record.WellFormed g raw := by
  refine ⟨by rw [Grammar.fill_eq, h]; rfl, ?_⟩
  have hlength := Grammar.length_of_classify h
  obtain ⟨hformed, hempty⟩ := Grammar.formed_read (Grammar.read_of_classify h)
  obtain ⟨id', directive, length⟩ := token
  refine
    { length := hlength
      empty_iff := hempty
      expression := hformed.expression
      asking := hformed.asking
      condition := fun hk => ?_
      each := fun hk => ?_
      define := fun hk => ?_
      value := fun hk hm => ?_
      mark := fun hk => ?_ }
  · cases directive with
    | ifOpen condition => exact condition.mode_ne_plain
    | whileOpen condition => exact condition.mode_ne_plain
    | _ => simp [record, Token.kind, Directive.kind] at hk
  · cases directive with
    | eachOpen name sequence => exact ⟨rfl, hformed.1⟩
    | _ => cases hk
  · cases directive with
    | define name meaning => exact ⟨⟨meaning.source, rfl, hformed.2.within⟩, hformed.1⟩
    | _ => cases hk
  · cases directive with
    | value name => exact ⟨rfl, hformed⟩
    | expression text => cases hm
    | _ => cases hk
  · cases directive with
    | empty => exact ⟨rfl, rfl, rfl⟩
    | elseMark => exact ⟨rfl, rfl, rfl⟩
    | ifClose => exact ⟨rfl, rfl, rfl⟩
    | whileClose => exact ⟨rfl, rfl, rfl⟩
    | eachClose => exact ⟨rfl, rfl, rfl⟩
    | _ => simp [record, Token.kind, Directive.kind] at hk

end

/-- A definition with blanks all over, whose value is a pair of delimiters around an expression with an
arrow and a colon in quotes. -/
theorem wellFormed_of_classify_pair :
    let g : Grammar := ⟨"[[".toList, "]]".toList, Name.isValid⟩
    let raw := "\ttotal : [[ x => \":=>\" + x.n ]] ".toList
    let text := "x => \":=>\" + x.n"
    let token : Token := ⟨7, .define "total" (.expression text), 32⟩
    let r : Record := ⟨7, .define, 32, "total", .expression, some text⟩
    g.classify 7 raw = .ok token ∧ g.fill 7 raw = .ok r ∧ r.length = raw.length ∧
      Expresses raw text ∧ g.Names raw "total" := by
  intro g raw text token r
  have hclassify : g.classify 7 raw = .ok token := by decide +kernel
  obtain ⟨hfill, hformed⟩ := wellFormed_of_classify hclassify
  obtain ⟨written, hexpression, hexpresses, -⟩ := hformed.expression rfl
  cases hexpression
  exact ⟨hclassify, hfill, hformed.length, hexpresses, (hformed.define rfl).2⟩

end Token

end Stencil
