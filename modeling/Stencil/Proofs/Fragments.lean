import Stencil.Proofs.Verbatim

/-! Definitions of fragments of a template.

A name can be defined as a text with tokens in it, which are rendered where the name is used
(`Rendering.stored_iff_and_rendered`). Whether a value is such a text or an expression is decided by an
arrow outside quotes, wherever it stands, so also within a pair of delimiters in the value
(`Token.Grammar.read_of_arrow`); a text with tokens is stored as it is written just if none of them has
such an arrow in it (`Token.Grammar.read_eq_text_iff`). -/
namespace Stencil

namespace Quoting
variable {text : List Char}

/-- Quotes are taken off only a text that has one at either end. -/
theorem strip_eq_self_iff : strip text = text ↔ ∀ inner, text ≠ quoted inner := by
  constructor
  · rintro h inner rfl
    rw [strip_quoted] at h
    have hlength := congrArg List.length h
    simp only [quoted, List.length_cons, List.length_append] at hlength
    omega
  · intro h
    unfold strip
    split
    · next rest =>
      refine if_neg fun hlast => ?_
      obtain ⟨inner, rfl⟩ := List.getLast?_eq_some_iff.1 hlast
      exact h inner rfl
    · rfl

end Quoting

namespace Token

/-- What a text means that is no pair of delimiters. -/
theorem Grammar.meaning_of_no_pair {g : Grammar} {text : List Char}
    (h : ∀ inner, CloseScan.Recovers g.left g.right inner → text ≠ g.left ++ inner ++ g.right) :
    g.meaning text = if isExpression text then .expression (String.ofList text)
      else .text (String.ofList (Quoting.strip text)) := by
  have hunwrap : CloseScan.unwrap? g.left g.right text = none := by
    cases hu : CloseScan.unwrap? g.left g.right text with
    | none => rfl
    | some inner =>
      obtain ⟨htext, hrecovers⟩ := CloseScan.recovers_of_unwrap? hu
      exact absurd htext (h inner hrecovers)
  unfold meaning
  rw [hunwrap]

/-- A name with a colon and a trimmed text behind it is defined as what the text means. -/
theorem Grammar.read_fragment {g : Grammar} {name : String} {text : List Char}
    (ha : g.accepts name = true) (hn : Name.isValid name = true) (ht : Text.trim text = text)
    (hp : ∀ inner, CloseScan.Recovers g.left g.right inner → text ≠ g.left ++ inner ++ g.right) :
    g.read (name.toList ++ ':' :: text) = .ok (.define name
      (if isExpression text then .expression (String.ofList text)
        else .text (String.ofList (Quoting.strip text)))) := by
  rw [read_definition ha hn, ht, meaning_of_no_pair hp]

/-- A text that is neither an expression nor in quotes: no arrow stands in it outside quotes, and it does
not both begin and end with a quote. -/
structure Fragment (text : List Char) : Prop where
  no_arrow : ∀ n, ¬Quoting.StandsAt arrow text n
  no_quotes : ∀ inner, text ≠ Quoting.quoted inner

theorem fragment_iff {text : List Char} :
    Fragment text ↔ isExpression text = false ∧ Quoting.strip text = text := by
  rw [Quoting.strip_eq_self_iff, ← Bool.not_eq_true, isExpression_iff]
  constructor
  · exact fun h => ⟨fun ⟨n, hn⟩ => h.no_arrow n hn, h.no_quotes⟩
  · exact fun h => ⟨fun n hn => h.1 ⟨n, hn⟩, h.2⟩

section
variable {g : Grammar} {name : String} {text : List Char}

/-- A fragment is stored as it is written, and nothing else is. -/
theorem Grammar.read_eq_text_iff (ha : g.accepts name = true) (hn : Name.isValid name = true)
    (ht : Text.trim text = text)
    (hp : ∀ inner, CloseScan.Recovers g.left g.right inner → text ≠ g.left ++ inner ++ g.right) :
    g.read (name.toList ++ ':' :: text) = .ok (.define name (.text (String.ofList text))) ↔
      Fragment text := by
  rw [read_fragment ha hn ht hp, fragment_iff]
  cases isExpression text with
  | true => simp
  | false => simp [String.ofList_inj]

/-- With an arrow outside quotes the whole text is an expression. -/
theorem Grammar.read_of_arrow (ha : g.accepts name = true) (hn : Name.isValid name = true)
    (ht : Text.trim text = text)
    (hp : ∀ inner, CloseScan.Recovers g.left g.right inner → text ≠ g.left ++ inner ++ g.right)
    {n : Nat} (harrow : Quoting.StandsAt arrow text n) :
    g.read (name.toList ++ ':' :: text) =
      .ok (.define name (.expression (String.ofList text))) := by
  rw [read_fragment ha hn ht hp, if_pos (isExpression_iff.2 ⟨n, harrow⟩)]

end

end Token

/-! ### Fragments as values -/

namespace Rendering
variable {κ σ : Type}

/-- **A fragment is stored as it is written, and its tokens are rendered where its name is used.** With
any delimiters, for every name and every trimmed text that is not one pair of them: the token that
defines the name as the text stores the text itself just if this is a fragment, that is, if no arrow
stands in it outside quotes, not even within a pair of delimiters, and it is not in quotes as a whole;
with such an arrow it is taken for an expression as a whole. To a fragment the name is bound, and where
the name is bound to it and no keyword, a token that is the name goes on with it: it begins a passage on
it if there are tokens in it. -/
theorem stored_iff_and_rendered {style : DelimiterStyle} {name : String}
    (hn : Name.isValid name = true) {text : List Char} (ht : Text.trim text = text)
    (hp : ∀ inner, CloseScan.Recovers style.left.toList style.right.toList inner →
      text ≠ style.left.toList ++ inner ++ style.right.toList) :
    let raw := name.toList ++ ':' :: text
    let value := String.ofList text
    let classify := (Token.Grammar.ofStyle style).classify
    ((∀ id, classify id raw = .ok ⟨id, .define name (.text value), raw.length⟩) ↔
      Token.Fragment text) ∧
    (∀ n, Quoting.StandsAt Token.arrow text n →
      ∀ id, classify id raw = .ok ⟨id, .define name (.expression value), raw.length⟩) ∧
    (Token.Fragment text →
      ∀ (host : Host κ) (r : Rendering κ σ), host.options.delimiters = style →
        host.callback = none → r.state.vars.accepts name = true → r.state.frames.suppressed = false →
        act host r raw = .running { r with
          state := { r.counted with vars := r.state.vars.set name (.str value) } } ∧
        (Token.Kind.ofKeyword? (String.ofList (Text.lower name.toList)) = none →
          r.state.vars.bound? name = some (.str value) →
          act host r name.toList =
            expand host { r with state := r.counted } text (r.state.tokens + 1))) := by
  intro raw value classify
  have hiff := Token.Grammar.read_eq_text_iff (g := .ofStyle style) hn hn ht hp
  refine ⟨⟨fun h => ?_, fun hf => ?_⟩, fun n harrow => ?_, fun hf host r hd hc ha hl => ?_⟩
  · exact hiff.1 (Token.Grammar.read_of_classify (h 0))
  · exact Token.Grammar.classify_of_read (hiff.2 hf)
  · exact Token.Grammar.classify_of_read
      (Token.Grammar.read_of_arrow (g := .ofStyle style) hn hn ht hp harrow)
  · subst hd
    refine ⟨act_define hl ((Token.Grammar.read_eq_text_iff ha hn ht hp).2 hf), fun hk hv => ?_⟩
    have hread := Token.Grammar.read_name (g := host.grammar r.state.vars) ha hn hk
    rw [act_name hc hl hread (Variables.get?_of_bound? hv), String.toList_ofList]

/-- A fragment with two tokens and an arrow in quotes, and its name as a token in a template. -/
theorem stored_iff_and_rendered_of_quoted_arrow :
    let text := "Dear {{n}} \"=>\" {{m}}".toList
    let host : Host Unit := {}
    let vars := Variables.ofList [("t", .str (String.ofList text))]
    let r : Rendering Unit TextSource := start (.fixed []) 0 { vars, memory := () } ⟨[], 0, 0⟩ {}
    Name.isValid "t" = true ∧ Text.trim text = text ∧ Token.Fragment text ∧
      (Token.Grammar.ofStyle .doubleBrace).classify 1 ("t".toList ++ ':' :: text) =
        .ok ⟨1, .define "t" (.text "Dear {{n}} \"=>\" {{m}}"), 23⟩ ∧
      act host r "t".toList = .running (({ r with state := r.counted } : Rendering _ _).enter text 1) := by
  intro text host vars r
  have hname : Name.isValid "t" = true := by decide +kernel
  have hword : Token.Kind.ofKeyword? (String.ofList (Text.lower "t".toList)) = none := by
    decide +kernel
  have htrim : Text.trim text = text := by decide +kernel
  have hplain : Token.isExpression text = false := by decide +kernel
  have hfragment : Token.Fragment text := Token.fragment_iff.2 ⟨hplain, rfl⟩
  have hpair : ∀ inner, CloseScan.Recovers DelimiterStyle.doubleBrace.left.toList
      DelimiterStyle.doubleBrace.right.toList inner → text ≠ DelimiterStyle.doubleBrace.left.toList ++
        inner ++ DelimiterStyle.doubleBrace.right.toList :=
    fun inner _ h => absurd (List.head_eq_of_cons_eq h) (by decide)
  obtain ⟨hiff, -, hrendered⟩ := stored_iff_and_rendered (κ := Unit) (σ := TextSource) hname htrim hpair
  obtain ⟨-, hact⟩ := hrendered hfragment host r rfl rfl hname rfl
  have htokens : Text.contains host.left text = true := by decide +kernel
  have hexpand : expand host { r with state := r.counted } text 1 =
      .running (({ r with state := r.counted } : Rendering _ _).enter text 1) := by
    unfold expand
    rw [if_pos htokens, if_neg (by decide)]
  exact ⟨hname, htrim, hfragment, hiff.2 hfragment 1, (hact hword rfl).trans hexpand⟩

end Rendering

namespace Token
open CloseScan

/-- The offset lies in a pair of delimiters of the text. -/
def InPair (left right text : List Char) (n : Nat) : Prop :=
  ∃ front inner back, text = front ++ left ++ inner ++ right ++ back ∧ Quoting.Balanced front ∧
    Recovers left right inner ∧ (front ++ left).length ≤ n ∧ n < (front ++ left ++ inner).length

/-- So it is not enough that every arrow outside quotes lies in a pair of delimiters. -/
theorem not_stored_of_arrow_in_pair :
    ¬∀ style ∈ DelimiterStyle.presets, ∀ name, Name.isValid name = true →
      ∀ text, Text.trim text = text → (∀ inner, text ≠ Quoting.quoted inner) →
      (∀ inner, Recovers style.left.toList style.right.toList inner →
        text ≠ style.left.toList ++ inner ++ style.right.toList) →
      (∀ n, Quoting.StandsAt arrow text n → InPair style.left.toList style.right.toList text n) →
      ∀ id, (Grammar.ofStyle style).classify id (name.toList ++ ':' :: text) =
        .ok ⟨id, .define name (.text (String.ofList text)), (name.toList ++ ':' :: text).length⟩ := by
  intro h
  have hrecovers : Recovers DelimiterStyle.doubleBrace.left.toList
      DelimiterStyle.doubleBrace.right.toList "x => 1".toList :=
    recovers_of_scan (by decide +kernel) (by decide +kernel)
  have harrow : ∀ n, Quoting.StandsAt arrow "a {{x => 1}} b".toList n → n = 6 := by
    rintro n ⟨-, hn⟩
    have hsmall : n < 14 := by
      by_contra hlarge
      rw [List.drop_eq_nil_of_le (Nat.le_of_not_lt hlarge)] at hn
      exact absurd (List.prefix_nil.1 hn) (by decide)
    have honly : ∀ n < 14, arrow.isPrefixOf ("a {{x => 1}} b".toList.drop n) = true → n = 6 := by
      decide +kernel
    exact honly n hsmall (List.isPrefixOf_iff_prefix.2 hn)
  have hstored := h .doubleBrace (by decide) "t" (by decide +kernel) "a {{x => 1}} b".toList
    (by decide +kernel) (fun inner he => absurd (List.head_eq_of_cons_eq he) (by decide))
    (fun inner _ he => absurd (List.head_eq_of_cons_eq he) (by decide))
    (fun n hn => ⟨"a ".toList, "x => 1".toList, " b".toList, rfl, rfl, hrecovers, by
      rw [harrow n hn]
      decide⟩) 1
  exact absurd hstored (by decide +kernel)

end Token

end Stencil
