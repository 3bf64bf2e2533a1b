import Stencil.Proofs.Operands
import Stencil.Token.Classify

/-! Tokens that hold an expression.

Three readers have to agree on what stands in quotes: the scan for the end of a token, the search for a
colon or an arrow in it, and the reader of expressions. Where an expression text stands in a token
(`Holder`), the scan finds the end of that token and no other one, and the token is read as one that
holds just this text (`Holder.recovers`, `Holder.classify_body`). -/
namespace Stencil.Token

/-- The ways in which a token holds an expression. -/
inductive Holder where
  /-- The expression is the token. -/
  | value
  /-- It decides an `if`. -/
  | ifOpen
  /-- It decides a `while`. -/
  | whileOpen
  /-- It gives the items for a name. -/
  | eachOpen (name : String)
  /-- It defines a name. -/
  | define (name : String)
  /-- It defines a name, with a pair of delimiters around it. -/
  | wrapped (name : String)
  deriving DecidableEq, Repr

namespace Holder

def body (style : DelimiterStyle) (text : List Char) : Holder → List Char
  | value => text
  | ifOpen => ['i', 'f'] ++ ' ' :: text
  | whileOpen => ['w', 'h', 'i', 'l', 'e'] ++ ' ' :: text
  | eachOpen name => ['e', 'a', 'c', 'h'] ++ ' ' :: (name.toList ++ ':' :: text)
  | define name => name.toList ++ ':' :: text
  | wrapped name => name.toList ++ ':' :: (style.left.toList ++ text ++ style.right.toList)

/-- What the token says, from the text of the expression. -/
def directive (text : String) : Holder → Directive
  | value => .expression text
  | ifOpen => .ifOpen (.expression text)
  | whileOpen => .whileOpen (.expression text)
  | eachOpen name => .eachOpen name text
  | define name => .define name (.expression text)
  | wrapped name => .define name (.expression text)

def name? : Holder → Option String
  | eachOpen name | define name | wrapped name => some name
  | _ => none

end Holder

/-- What tokens are read with where a template is written with a pair of delimiters and nothing else is
said about names. -/
def Grammar.ofStyle (style : DelimiterStyle) : Grammar :=
  ⟨style.left.toList, style.right.toList, Name.isValid⟩

/-! ### The arrow and the colon -/

/-- Nothing that begins with a sign is found in a text without signs. -/
theorem find?_append_of_plain {piece front : List Char} {sign : Char} (hs : sign ∈ Text.signs)
    (hf : Text.Plain front) (rest : List Char) :
    Quoting.find? (sign :: piece) (front ++ rest) =
      (Quoting.find? (sign :: piece) rest).map (· + front.length) := by
  refine Quoting.find?_append (fun hm => hf _ hm (by decide)) (fun c hc he => ?_)
    (List.cons_ne_nil _ _) rest
  cases he
  exact hf _ hc hs

/-- But it is found behind it. -/
theorem find?_behind_plain {piece front rest : List Char} {sign : Char} (hs : sign ∈ Text.signs)
    (hm : sign ≠ Quoting.mark) (hf : Text.Plain front) (hp : sign :: piece <+: rest) :
    Quoting.find? (sign :: piece) (front ++ rest) = some front.length := by
  have hfound : Quoting.find? (sign :: piece) rest = some 0 :=
    Quoting.find?_of_isPrefix hp (List.cons_ne_nil _ _) fun he => hm (Option.some.inj he)
  rw [find?_append_of_plain hs hf, hfound, Option.map_some, Nat.zero_add]

theorem find?_colon {front : List Char} (hf : Text.Plain front) (rest : List Char) :
    Quoting.find? colon (front ++ ':' :: rest) = some front.length :=
  find?_behind_plain (by decide) (by decide) hf ⟨rest, rfl⟩

/-- No arrow is found in front of the first colon. -/
theorem lt_of_find?_arrow {front rest : List Char} {m : Nat} (hf : Text.Plain front)
    (h : Quoting.find? arrow (front ++ ':' :: rest) = some m) : front.length < m := by
  rw [arrow, find?_append_of_plain (by decide) hf] at h
  obtain ⟨k, hk, rfl⟩ := Option.map_eq_some_iff.1 h
  have hcolon : Quoting.find? arrow ([':'] ++ rest) = (Quoting.find? arrow rest).map (· + 1) :=
    Quoting.find?_append (by decide) (List.forall_mem_singleton.2 (by decide)) (List.cons_ne_nil _ _)
      rest
  rw [arrow, List.singleton_append, hk] at hcolon
  obtain ⟨l, -, hl⟩ := Option.map_eq_some_iff.1 hcolon.symm
  omega

end Stencil.Token

namespace Stencil.Arrowed
open Token
variable {text core : List Char}

theorem trim_eq (h : Arrowed text core) : Text.trim text = core := by
  obtain ⟨lead, trail, rfl, hlead, htrail⟩ := h.exists_blank
  exact Text.trim_append hlead h.tight htrail

theorem find?_arrow (h : Arrowed text core) :
    ∃ param body, core = param ++ (Symbol.arrow.text ++ body) ∧ Text.Plain param ∧
      Quoting.find? arrow core = some param.length := by
  obtain ⟨param, body, hcore, -, hparam⟩ := h.exists_arrow
  refine ⟨param, body, hcore, hparam, ?_⟩
  rw [hcore]
  exact find?_behind_plain (by decide) (by decide) hparam ⟨body, rfl⟩

theorem isExpression (h : Arrowed text core) : isExpression core = true := by
  obtain ⟨param, body, -, -, hfound⟩ := h.find?_arrow
  rw [Token.isExpression, Quoting.occurs, hfound]
  rfl

/-- It does not begin with a sign. -/
theorem exists_head (h : Arrowed text core) : ∃ c rest, core = c :: rest ∧ c ∉ Text.signs := by
  obtain ⟨param, body, rfl, hn, hparam⟩ := h.exists_arrow
  cases param with
  | nil => exact absurd rfl hn
  | cons c param => exact ⟨c, param ++ (Symbol.arrow.text ++ body), rfl, hparam c (List.mem_cons_self ..)⟩

end Stencil.Arrowed

namespace Stencil.Token.Grammar
variable {g : Grammar} {text core : List Char}

/-! ### What a text of an expression is read as -/

theorem classify_of_read {raw : List Char} {directive : Directive} (h : g.read raw = .ok directive)
    (id : Nat) : g.classify id raw = .ok ⟨id, directive, raw.length⟩ := by
  unfold classify
  rw [h]

theorem condition_eq (h : Arrowed text core) (kind : Kind) :
    g.condition kind core = .ok (.expression (String.ofList core)) := by
  obtain ⟨c, rest, hcore, hc⟩ := h.exists_head
  unfold condition
  split
  · next hnil => exact absurd rfl h.tight.ne_nil
  · next rest' =>
    cases hcore
    exact absurd (by decide) hc
  · exact if_pos h.isExpression

theorem valueOrDefinition_eq (h : Arrowed text core) :
    g.valueOrDefinition core = .ok (.expression (String.ofList core)) := by
  obtain ⟨param, body, hcore, hparam, hfound⟩ := h.find?_arrow
  unfold valueOrDefinition
  rw [hfound]
  split
  · next n m hcolon harrow =>
    cases harrow
    -- The colon, if there is one, stands behind the arrow.
    rw [hcore, colon, find?_append_of_plain (by decide) hparam] at hcolon
    obtain ⟨k, -, rfl⟩ := Option.map_eq_some_iff.1 hcolon
    exact if_neg (by omega)
  · next harrow => cases harrow
  · rfl
  · next harrow => cases harrow

/-- A text that does not begin as the left delimiter does is no pair of delimiters. -/
theorem meaning_eq (h : Arrowed text core) {sign : Char} (hs : sign ∈ Text.signs)
    (hl : g.left.head? = some sign) : g.meaning core = .expression (String.ofList core) := by
  obtain ⟨c, rest, hcore, hc⟩ := h.exists_head
  have hunwrap : CloseScan.unwrap? g.left g.right core = none := by
    refine if_neg fun hprefix => ?_
    obtain ⟨more, hmore⟩ := List.isPrefixOf_iff_prefix.1 hprefix
    cases hleft : g.left with
    | nil =>
      rw [hleft] at hl
      cases hl
    | cons d left =>
      rw [hleft, List.head?_cons] at hl
      rw [hleft, hcore] at hmore
      cases hl
      cases hmore
      exact hc hs
  unfold meaning
  rw [hunwrap]
  exact if_pos h.isExpression

/-- Around an expression, a pair of delimiters is taken off. -/
theorem meaning_wrapped (hp : CloseScan.Proper g.left g.right) (h : Arrowed text core)
    (hc : CloseScan.Clear g.left g.right g.right text) :
    g.meaning (g.left ++ text ++ g.right) = .expression (String.ofList core) := by
  unfold meaning
  rw [CloseScan.unwrap?_of_recovers (CloseScan.recovers_of_clear hp hc)]
  dsimp only
  rw [h.trim_eq]
  exact if_pos h.isExpression

/-! ### Tokens with a name -/

section
variable {name : String} {lead trail : List Char}

theorem tight_name (hn : Name.isValid name = true) : Text.Tight name.toList :=
  (Name.plain_of_isValid hn).2.tight (Name.forall_mem_of_isValid hn).1

/-- With a name, a colon and some text in front, the blanks at the end can still be taken off. -/
theorem tight_named (hn : Name.isValid name = true) (h : Text.Tight core) (lead : List Char) :
    Text.Tight (name.toList ++ ':' :: (lead ++ core)) := by
  have htight := (tight_name hn).append h (':' :: lead)
  rwa [List.append_assoc] at htight

theorem name_eq (ha : g.accepts name = true) (hn : Name.isValid name = true) :
    g.name (Text.trim name.toList) = .ok name := by
  unfold Grammar.name
  rw [(tight_name hn).trim_eq, String.ofList_toList]
  exact if_pos ha

theorem trim_lead (h : Text.Tight core) (hl : Text.Blank lead) : Text.trim (lead ++ core) = core := by
  have htrim := Text.trim_append hl h Text.blank_nil
  rwa [List.append_nil] at htrim

theorem drop_name (front rest : List Char) : (front ++ ':' :: rest).drop (front.length + 1) = rest := by
  rw [List.append_cons, ← List.length_singleton (a := ':'), ← List.length_append, List.drop_left]

theorem take_name (front rest : List Char) : (front ++ ':' :: rest).take front.length = front :=
  List.take_left

theorem sequence_eq (ha : g.accepts name = true) (hn : Name.isValid name = true)
    (h : Arrowed text core) (hl : Text.Blank lead) :
    g.sequence (name.toList ++ ':' :: (lead ++ core)) =
      .ok (.eachOpen name (String.ofList core)) := by
  unfold sequence
  rw [find?_colon (Name.plain_of_isValid hn).1]
  dsimp only
  rw [drop_name, trim_lead h.tight hl, if_pos h.isExpression, take_name, name_eq ha hn]
  rfl

/-- A name with a colon behind it is defined as what stands behind the colon. -/
theorem valueOrDefinition_named (ha : g.accepts name = true) (hn : Name.isValid name = true)
    (rest : List Char) :
    g.valueOrDefinition (name.toList ++ ':' :: rest) =
      .ok (.define name (g.meaning (Text.trim rest))) := by
  have hplain := (Name.plain_of_isValid hn).1
  have hdefinition : g.definition (name.toList ++ ':' :: rest) name.toList.length =
      .ok (.define name (g.meaning (Text.trim rest))) := by
    unfold definition
    rw [drop_name, take_name, name_eq ha hn]
    rfl
  unfold valueOrDefinition
  rw [find?_colon hplain]
  split
  · next n m hcolon harrow =>
    cases hcolon
    rw [if_pos (lt_of_find?_arrow hplain harrow)]
    exact hdefinition
  · next n hcolon _ =>
    cases hcolon
    exact hdefinition
  · next hcolon _ => cases hcolon
  · next hcolon _ => cases hcolon

end

/-! ### The first word -/

section
variable {lead trail : List Char} {kind : Kind}

/-- The first word decides. -/
theorem read_eq {raw : List Char} (htrim : Text.trim raw = core) (hn : core ≠ []) :
    g.read raw =
      match Kind.ofKeyword? (String.ofList (Text.lower (Text.firstWord core).1)) with
      | some kind => g.directive kind (Text.trim (Text.firstWord core).2)
      | none => g.valueOrDefinition core := by
  unfold read
  rw [htrim]
  exact if_neg fun he => hn (List.isEmpty_iff.1 he)

/-- A keyword in front of a text is read as what it asks for. -/
theorem read_of_keyword (word : List Char) (hw : Text.Solid word) (hn : word ≠ [])
    (hk : Kind.ofKeyword? (String.ofList (Text.lower word)) = some kind) (hl : Text.Blank lead)
    (h : Text.Tight core) (ht : Text.Blank trail) :
    g.read (word ++ ' ' :: (lead ++ core ++ trail)) = g.directive kind core := by
  have hblank : Text.Blank (' ' :: lead) := List.forall_mem_cons.2 ⟨by decide, hl⟩
  have htight := (hw.tight hn).append h (' ' :: lead)
  have htrim := Text.trim_append Text.blank_nil htight ht
  have hrest := Text.trim_append hblank h Text.blank_nil
  simp only [List.nil_append, List.append_nil, List.append_assoc, List.cons_append]
    at htrim hrest htight ⊢
  rw [read_eq htrim htight.ne_nil, Text.firstWord_append hw (by decide)]
  dsimp only
  rw [hk, hrest]

/-- Where no keyword comes first, a colon or an arrow decides. -/
theorem read_of_no_keyword (hl : Text.Blank lead) (h : Text.Tight core) (ht : Text.Blank trail)
    (hk : Kind.ofKeyword? (String.ofList (Text.lower (Text.firstWord core).1)) = none) :
    g.read (lead ++ core ++ trail) = g.valueOrDefinition core := by
  rw [read_eq (Text.trim_append hl h ht) h.ne_nil, hk]

/-- A name with a colon behind it is no keyword. -/
theorem ofKeyword?_named {name : String} (hn : Name.isValid name = true) (rest : List Char) :
    Kind.ofKeyword? (String.ofList (Text.lower (Text.firstWord (name.toList ++ ':' :: rest)).1)) =
      none := by
  have hword : ':' ∈ (Text.firstWord (name.toList ++ ':' :: rest)).1 := by
    rw [List.append_cons]
    refine Text.mem_firstWord (fun c hc => ?_) (List.mem_append_right _ (List.mem_singleton.2 rfl)) _
    rcases List.mem_append.1 hc with hc | hc
    · exact (Name.plain_of_isValid hn).2 c hc
    · rw [List.mem_singleton.1 hc]
      decide
  exact Kind.ofKeyword?_lower (by decide) hword

/-- A token that begins with a name and a colon defines the name as what stands behind the colon. -/
theorem read_definition {name : String} (ha : g.accepts name = true) (hn : Name.isValid name = true)
    (rest : List Char) :
    g.read (name.toList ++ ':' :: rest) = .ok (.define name (g.meaning (Text.trim rest))) := by
  rcases Text.blank_or_exists_tight rest with hblank | ⟨lead, core, trail, rfl, hl, htight, ht⟩
  · have hcolon : Text.Tight (name.toList ++ [] ++ [':']) :=
      (tight_name hn).append (Text.Solid.tight (by decide) (by decide)) []
    rw [List.append_nil] at hcolon
    have hread := read_of_no_keyword (g := g) Text.blank_nil hcolon hblank (ofKeyword?_named hn [])
    rw [valueOrDefinition_named ha hn, List.nil_append, List.append_assoc] at hread
    rw [Text.trim_of_blank hblank]
    exact hread
  · have hread := read_of_no_keyword (g := g) Text.blank_nil (tight_named hn htight lead) ht
      (ofKeyword?_named hn _)
    rw [valueOrDefinition_named ha hn, trim_lead htight hl] at hread
    rw [Text.trim_append hl htight ht]
    simpa only [List.nil_append, List.append_assoc, List.cons_append] using hread

end

end Stencil.Token.Grammar

namespace Stencil.Token.Holder
open CloseScan
variable {style : DelimiterStyle} {text core : List Char}

/-! ### The scan and the reading of a token -/

/-- A token that holds an expression is found to end where it does. -/
theorem recovers (hs : style.IsPreset) (ht : Tame text) (holder : Holder)
    (hn : ∀ name, holder.name? = some name → Name.isValid name = true) :
    Recovers style.left.toList style.right.toList (holder.body style text) := by
  have hword : ∀ {front more : List Char}, Harmless front → Tame more → Tame (front ++ ' ' :: more) :=
    fun hf hm => Tame.append_unquoted (hm.cons_unquoted (by decide)) hf
  have hname : ∀ {name : String} {more : List Char}, Name.isValid name = true → Tame more →
      Tame (name.toList ++ ':' :: more) := fun hn hm =>
    Tame.append_unquoted (hm.cons_unquoted (by decide)) (Name.plain_of_isValid hn).1.harmless
  cases holder with
  | value => exact recovers_of_clear hs.proper (hs.clear_right ht)
  | ifOpen => exact recovers_of_clear hs.proper (hs.clear_right (hword (by decide) ht))
  | whileOpen => exact recovers_of_clear hs.proper (hs.clear_right (hword (by decide) ht))
  | eachOpen name =>
    have hnamed := hname (hn name rfl) ht
    exact recovers_of_clear hs.proper (hs.clear_right (hword (by decide) hnamed))
  | define name => exact recovers_of_clear hs.proper (hs.clear_right (hname (hn name rfl) ht))
  | wrapped name =>
    have hfront := hname (hn name rfl) tame_nil
    have hpair := recovers_of_pair hs.proper (hs.clear_left hfront) (hs.not_right_append_left hfront)
      (hs.clear_right ht) (hs.clear_right tame_nil)
    have hbody : (wrapped name).body style text = name.toList ++ ':' :: [] ++ style.left.toList ++ text ++
        style.right.toList := by
      simp only [body, List.append_assoc, List.cons_append, List.nil_append]
    rw [hbody]
    exact hpair

/-- A token that holds an expression says what it should of the text of it. -/
theorem read_body (hs : style.IsPreset) (ht : Tame text) (h : Arrowed text core) (holder : Holder)
    (hn : ∀ name, holder.name? = some name → Name.isValid name = true)
    (hk : holder = .value →
      Kind.ofKeyword? (String.ofList (Text.lower (Text.firstWord core).1)) = none) :
    (Grammar.ofStyle style).read (holder.body style text) =
      .ok (holder.directive (String.ofList core)) := by
  obtain ⟨lead, trail, htext, hlead, htrail⟩ := h.exists_blank
  cases holder with
  | value =>
    rw [body, htext, Grammar.read_of_no_keyword hlead h.tight htrail (hk rfl)]
    exact Grammar.valueOrDefinition_eq h
  | ifOpen =>
    have hread := Grammar.read_of_keyword (g := .ofStyle style) ['i', 'f'] (by decide) (by decide)
      rfl hlead h.tight htrail
    rw [body, htext, hread, Grammar.directive, Grammar.condition_eq h]
    rfl
  | whileOpen =>
    have hread := Grammar.read_of_keyword (g := .ofStyle style) ['w', 'h', 'i', 'l', 'e']
      (by decide) (by decide) rfl hlead h.tight htrail
    rw [body, htext, hread, Grammar.directive, Grammar.condition_eq h]
    rfl
  | eachOpen name =>
    have hread := Grammar.read_of_keyword (g := .ofStyle style) ['e', 'a', 'c', 'h']
      (by decide) (by decide) rfl Text.blank_nil (Grammar.tight_named (hn name rfl) h.tight lead) htrail
    have hsequence := Grammar.sequence_eq (g := .ofStyle style) (hn name rfl) (hn name rfl) h hlead
    have hbody : (eachOpen name).body style text = ['e', 'a', 'c', 'h'] ++
        ' ' :: ([] ++ (name.toList ++ ':' :: (lead ++ core)) ++ trail) := by
      rw [body, htext, List.nil_append, List.append_assoc name.toList]
      rfl
    rw [hbody, hread]
    exact hsequence
  | define name =>
    rw [body, Grammar.read_definition (hn name rfl) (hn name rfl), h.trim_eq]
    obtain ⟨sign, hsign, hleft⟩ := hs.exists_sign
    rw [Grammar.meaning_eq h hsign hleft]
    rfl
  | wrapped name =>
    have htight := hs.tight_left.append hs.tight_right text
    have hmeaning := Grammar.meaning_wrapped (g := .ofStyle style) hs.proper h (hs.clear_right ht)
    rw [body, Grammar.read_definition (hn name rfl) (hn name rfl), htight.trim_eq]
    exact congrArg (fun meaning => Except.ok (Directive.define name meaning)) hmeaning

/-- **The readers of a token agree on the expression in it.** For every text that is an expression and
every place in a token where one can stand, the scan that starts behind the left delimiter finds the
end of just this token, whatever follows and wherever the text is cut, and the token is read as holding
this text without the blanks at its ends, for the name that is in it. (An expression that stands alone
must not begin with a keyword.) -/
theorem recovers_and_classify (hs : style.IsPreset) {e : String} {lambda : Lambda}
    (he : Lambda.parse e = .ok lambda) (holder : Holder)
    (hn : ∀ name, holder.name? = some name → Name.isValid name = true) :
    Recovers style.left.toList style.right.toList (holder.body style e.toList) ∧
      ((holder = .value → Kind.ofKeyword?
          (String.ofList (Text.lower (Text.firstWord (Text.trim e.toList)).1)) = none) →
        ∀ id, (Grammar.ofStyle style).classify id (holder.body style e.toList) =
          .ok ⟨id, holder.directive (String.ofList (Text.trim e.toList)),
            (holder.body style e.toList).length⟩) := by
  have htame := Lambda.tame_of_parse he
  obtain ⟨core, harrowed⟩ := Lambda.arrowed_of_parse he
  rw [harrowed.trim_eq]
  exact ⟨recovers hs htame holder hn, fun hk id =>
    Grammar.classify_of_read (read_body hs htame harrowed holder hn hk) id⟩

/-- Both delimiters, a colon, an arrow, a quote and a backslash stand in quotes in this expression, and
the operator that the delimiters are made of stands in it outside quotes. -/
theorem recovers_and_classify_of_quoted_delimiters :
    (Lambda.parse " x => x % \"<%: => \\\" \\\\%>\" ").toOption.isSome = true ∧
      Name.isValid "total[0]" = true ∧
      Recovers "<%".toList "%>".toList "total[0]:<% x => x % \"<%: => \\\" \\\\%>\" %>".toList ∧
      (Grammar.ofStyle .anglePercent).classify 1
          "total[0]:<% x => x % \"<%: => \\\" \\\\%>\" %>".toList =
        .ok ⟨1, .define "total[0]" (.expression "x => x % \"<%: => \\\" \\\\%>\""), 40⟩ := by
  have hparse : (Lambda.parse " x => x % \"<%: => \\\" \\\\%>\" ").toOption.isSome = true := by
    decide +kernel
  have hname : Name.isValid "total[0]" = true := by decide +kernel
  have htrim : String.ofList (Text.trim " x => x % \"<%: => \\\" \\\\%>\" ".toList) =
      "x => x % \"<%: => \\\" \\\\%>\"" := by decide +kernel
  have hbody : (wrapped "total[0]").body .anglePercent
      " x => x % \"<%: => \\\" \\\\%>\" ".toList =
        "total[0]:<% x => x % \"<%: => \\\" \\\\%>\" %>".toList := by decide +kernel
  cases he : Lambda.parse " x => x % \"<%: => \\\" \\\\%>\" " with
  | error _ =>
    rw [he] at hparse
    cases hparse
  | ok lambda =>
    have hpreset : DelimiterStyle.anglePercent.IsPreset := .inr (.inr rfl)
    obtain ⟨hrecovers, hclassify⟩ := recovers_and_classify hpreset he (.wrapped "total[0]")
      fun name h => by
        cases h
        exact hname
    have hclassify := hclassify nofun 1
    rw [htrim, hbody] at hclassify
    rw [hbody] at hrecovers
    exact ⟨he ▸ hparse, hname, hrecovers, hclassify⟩

end Stencil.Token.Holder
