import Mathlib.Data.List.Induction
import Stencil.Proofs.Definitions
import Stencil.Proofs.Naming
import Stencil.Proofs.Pairs

/-! Definitions of texts in quotes.

Between two quotes a text without quotes is out of play, unless it ends in a backslash that takes the
second quote out of play with it (`Quoting.content_of_escapesBehind`). So all that read a token agree on
where a quoted value ends: the scan for the end of the token, the search for the colon and the arrow, and
what takes the quotes off; and a name that is defined as a text in quotes is bound to just this text,
whatever stands in it (`Rendering.recovers_and_binds_quoted`). -/
namespace Stencil

/-! ### Between quotes -/

namespace Quoting
variable {text : List Char} {c : Char}

/-- How many backslashes the text ends in. -/
def escapesBehind (text : List Char) : Nat :=
  (text.reverse.takeWhile (· = escape)).length

theorem escapesBehind_concat_escape (text : List Char) :
    escapesBehind (text ++ [escape]) = escapesBehind text + 1 := by
  simp [escapesBehind]

theorem escapesBehind_concat (text : List Char) (h : c ≠ escape) :
    escapesBehind (text ++ [c]) = 0 := by
  simp [escapesBehind, h]

/-- Without a quote in the text, it is the backslashes at its end that take the next character out of
play, or do not. -/
theorem after_inside (h : mark ∉ text) :
    inside.after text = if escapesBehind text % 2 = 0 then inside else escaped := by
  induction text using List.reverseRecOn with
  | nil => rfl
  | append_singleton text c ih =>
    have htext : mark ∉ text := fun hm => h (List.mem_append_left _ hm)
    have hc : mark ∉ [c] := fun hm => h (List.mem_append_right _ hm)
    have hnext : inside.after (text ++ [c]) =
        (if escapesBehind text % 2 = 0 then inside else escaped).next c := by
      rw [after_append, ih htext]
      rfl
    rw [hnext]
    by_cases he : c = escape
    · subst he
      rw [escapesBehind_concat_escape]
      by_cases heven : escapesBehind text % 2 = 0
      · rw [if_pos heven, if_neg (by omega)]
        rfl
      · rw [if_neg heven, if_pos (by omega)]
        rfl
    · have hmark : c ≠ mark := fun hm => hc (List.mem_singleton.2 hm.symm)
      rw [escapesBehind_concat text he, if_pos (Nat.zero_mod 2)]
      split
      · simp [next, he, hmark]
      · rfl

/-- A text between quotes that is out of play in front of the second one. -/
theorem content_of_after :
    ∀ {text : List Char}, mark ∉ text → inside.after text = inside → Content text
  | [], _, _ => .nil
  | c :: rest, h, ha => by
    have hmark : c ≠ mark := (List.ne_of_not_mem_cons h).symm
    have hrest := List.not_mem_of_not_mem_cons h
    by_cases he : c = escape
    · subst he
      cases rest with
      | nil => cases ha
      | cons d rest => exact .pair d (content_of_after (List.not_mem_of_not_mem_cons hrest) ha)
    · have hnext : inside.next c = inside := by simp [next, he, hmark]
      have ha : (inside.next c).after rest = inside := ha
      rw [hnext] at ha
      exact .plain hmark he (content_of_after hrest ha)

/-- A text without quotes may stand between quotes if the backslashes at its end pair up. -/
theorem content_of_escapesBehind (h : mark ∉ text) (he : escapesBehind text % 2 = 0) : Content text :=
  content_of_after h ((after_inside h).trans (if_pos he))

/-- The text with a quote at either end. -/
def quoted (text : List Char) : List Char :=
  mark :: (text ++ [mark])

theorem strip_quoted (text : List Char) : strip (quoted text) = text := by
  have hlast : (text ++ [mark]).getLast? = some mark := List.getLast?_concat
  show (if (text ++ [mark]).getLast? = some mark then (text ++ [mark]).dropLast else quoted text) = text
  rw [if_pos hlast, List.dropLast_concat]

theorem tight_quoted (text : List Char) : Text.Tight (quoted text) := by
  have hmark : Text.Tight [mark] := Text.Solid.tight (by decide) (by decide)
  exact hmark.append hmark text

/-- Nothing is seen of a quoted text, and behind it a reader is where it was. -/
theorem Content.quoted (h : Content text) :
    Balanced (quoted text) ∧ ∀ d ∈ outside.mask (Quoting.quoted text), d = mark := by
  obtain ⟨hafter, hmask⟩ := h.close
  refine ⟨hafter, fun d hd => ?_⟩
  have hmasked : outside.mask (Quoting.quoted text) =
      mark :: (List.replicate text.length mark ++ [mark]) := congrArg (mark :: ·) hmask
  rw [hmasked] at hd
  simp only [List.mem_cons, List.mem_append, List.mem_replicate] at hd
  grind

end Quoting

/-! ### Tokens that define a name -/

namespace Token
open CloseScan
variable {g : Grammar} {style : DelimiterStyle} {name : String} {text : List Char}

/-- A quoted text is not an expression, nor a pair of delimiters. -/
theorem Grammar.meaning_quoted (hp : Proper g.left g.right) (h : Quoting.Content text) :
    g.meaning (Quoting.quoted text) = .text (String.ofList text) := by
  have hunwrap : unwrap? g.left g.right (Quoting.quoted text) = none := by
    refine if_neg fun hprefix => ?_
    obtain ⟨more, hmore⟩ := List.isPrefixOf_iff_prefix.1 hprefix
    cases hleft : g.left with
    | nil => exact hp.left_ne_nil hleft
    | cons c left =>
      rw [hleft] at hmore
      have hc : c = Quoting.mark := List.head_eq_of_cons_eq hmore
      exact hp.mark_notMem_left (by rw [hleft, hc]; exact List.mem_cons_self ..)
  have hplain : isExpression (Quoting.quoted text) = false := by
    unfold isExpression Quoting.occurs Quoting.find? arrow
    rw [Quoting.findFrom_eq_none fun hm => absurd (h.quoted.2 _ hm) (by decide)]
    rfl
  unfold meaning
  rw [hunwrap, hplain, Quoting.strip_quoted]
  rfl

/-- The text of a token that defines a name as a quoted text. -/
def quotedDefinition (name : String) (text : List Char) : List Char :=
  name.toList ++ ':' :: Quoting.quoted text

theorem Grammar.read_quotedDefinition (hp : Proper g.left g.right) (ha : g.accepts name = true)
    (hn : Name.isValid name = true) (h : Quoting.Content text) :
    g.read (quotedDefinition name text) = .ok (.define name (.text (String.ofList text))) := by
  rw [quotedDefinition, read_definition ha hn, (Quoting.tight_quoted text).trim_eq,
    meaning_quoted hp h]

theorem recovers_quotedDefinition (hs : style ∈ DelimiterStyle.presets)
    (hn : Name.isValid name = true) (h : Quoting.Content text) :
    Recovers style.left.toList style.right.toList (quotedDefinition name text) := by
  obtain ⟨hplain, -⟩ := Name.plain_of_isValid hn
  obtain ⟨hbalanced, hquoted⟩ := h.quoted
  have htame : Tame (Quoting.quoted text) := by
    have hnil := tame_nil.append hbalanced fun c hc => by
      rw [hquoted c hc]
      decide
    rwa [List.append_nil] at hnil
  have htame : Tame (quotedDefinition name text) :=
    (htame.cons_unquoted (by decide)).append_unquoted hplain.harmless
  -- The name is seen as it stands, and of what is behind it only the colon.
  obtain ⟨hname, hseen⟩ := Quoting.of_notMem_mark fun hm => hplain _ hm (by decide)
  have hmask : Quoting.outside.mask (quotedDefinition name text) ++ [']'] =
      name.toList ++ (':' :: Quoting.outside.mask (Quoting.quoted text) ++ [']']) := by
    rw [quotedDefinition, hname.mask_append, hseen, List.append_assoc]
    rfl
  refine recovers_of_clear (DelimiterStyle.proper_of_mem hs)
    (DelimiterStyle.clear_of_mem hs htame ?_)
  rw [hmask]
  refine List.isChain_append.2 ⟨Name.isChain_unpaired hn, ?_, fun a _ b hb => ?_⟩
  · refine isChain_append_of_forall (fun a ha => unpaired_of_left ?_) (List.isChain_singleton _)
    rcases List.mem_cons.1 ha with rfl | ha
    · decide
    · rw [hquoted a ha]
      decide
  · cases hb
    exact unpaired_of_right (by decide) a

end Token

/-! ### What a definition does -/

namespace Rendering
variable {κ σ : Type} {host : Host κ} {r : Rendering κ σ}

/-- A token that defines a name as a text binds the name to it, and does nothing else. -/
theorem act_define {raw : List Char} {name text : String} (hl : r.state.frames.suppressed = false)
    (hr : (host.grammar r.state.vars).read raw = .ok (.define name (.text text))) :
    act host r raw =
      .running { r with state := { r.counted with vars := r.state.vars.set name (.str text) } } := by
  have hlive : r.counted.frames.suppressed = false := hl
  have hresolves : r.Resolves host raw ⟨r.counted.tokens, .define name (.text text), raw.length⟩
      .ignore { r.counted with vars := r.counted.vars.set name (.str text) } :=
    ⟨Token.Grammar.classify_of_read hr _, Host.interpret_define hlive⟩
  rw [act_of_resolves hresolves]
  rfl

/-- **A quoted definition is verbatim.** With every preset, for every name and every text in which there
is no quote and the backslashes at the end pair up, whatever else stands in the text: behind the left
delimiter the scan stops right behind the definition and its right delimiter, whatever follows and
wherever that is cut; the token defines the name as this text; and where output is not withheld, the name
is bound to it, character for character, and nothing else is done. -/
theorem recovers_and_binds_quoted {style : DelimiterStyle} (hs : style ∈ DelimiterStyle.presets)
    {name : String} (hn : Name.isValid name = true) {text : List Char} (hm : Quoting.mark ∉ text)
    (he : Quoting.escapesBehind text % 2 = 0) :
    CloseScan.Recovers style.left.toList style.right.toList (Token.quotedDefinition name text) ∧
      (∀ id, (Token.Grammar.ofStyle style).classify id (Token.quotedDefinition name text) =
        .ok ⟨id, .define name (.text (String.ofList text)),
          (Token.quotedDefinition name text).length⟩) ∧
      ∀ (host : Host κ) (r : Rendering κ σ), host.options.delimiters = style →
        r.state.vars.accepts name = true → r.state.frames.suppressed = false →
        let vars := r.state.vars.set name (.str (String.ofList text))
        act host r (Token.quotedDefinition name text) =
            .running { r with state := { r.counted with vars } } ∧
          vars.bound? name = some (.str (String.ofList text)) := by
  have hcontent := Quoting.content_of_escapesBehind hm he
  have hproper := DelimiterStyle.proper_of_mem hs
  refine ⟨Token.recovers_quotedDefinition hs hn hcontent, fun id => ?_, fun host r hd ha hl => ?_⟩
  · have hread := Token.Grammar.read_quotedDefinition (g := .ofStyle style) hproper hn hn hcontent
    exact Token.Grammar.classify_of_read hread id
  · subst hd
    have hread := Token.Grammar.read_quotedDefinition (g := host.grammar r.state.vars) hproper ha hn
      hcontent
    exact ⟨act_define hl hread, Variables.bound?_set_self ..⟩

/-- A text with both delimiters, a colon, an arrow and a line break in it that ends in two backslashes. -/
theorem recovers_and_binds_quoted_delimiters :
    let text := " ]]: x => [[y]]\n\\\\".toList
    let host : Host Unit := { options := { delimiters := .doubleBracket } }
    let r : Rendering Unit TextSource := start (.fixed []) 0 { vars := {}, memory := () } ⟨[], 0, 0⟩ {}
    Name.isValid "p[2]" = true ∧ Quoting.mark ∉ text ∧ Quoting.escapesBehind text % 2 = 0 ∧
      CloseScan.Recovers "[[".toList "]]".toList "p[2]:\" ]]: x => [[y]]\n\\\\\"".toList ∧
      (Token.Grammar.ofStyle .doubleBracket).classify 1
          "p[2]:\" ]]: x => [[y]]\n\\\\\"".toList =
        .ok ⟨1, .define "p[2]" (.text " ]]: x => [[y]]\n\\\\"), 25⟩ ∧
      (act host r "p[2]:\" ]]: x => [[y]]\n\\\\\"".toList).rendering.state.vars.bound? "p[2]" =
        some (.str " ]]: x => [[y]]\n\\\\") := by
  intro text host r
  have hname : Name.isValid "p[2]" = true := by decide +kernel
  have hmark : Quoting.mark ∉ text := by decide +kernel
  have hescapes : Quoting.escapesBehind text % 2 = 0 := by decide +kernel
  have hstyle : DelimiterStyle.doubleBracket ∈ DelimiterStyle.presets := by decide
  obtain ⟨hrecovers, hclassify, hbinds⟩ := recovers_and_binds_quoted (κ := Unit) (σ := TextSource)
    hstyle hname hmark hescapes
  obtain ⟨hact, hbound⟩ := hbinds host r rfl hname rfl
  have hact : act host r "p[2]:\" ]]: x => [[y]]\n\\\\\"".toList = _ := hact
  refine ⟨hname, hmark, hescapes, hrecovers, hclassify 1, ?_⟩
  rw [hact]
  exact hbound

end Rendering

end Stencil
