import Stencil.Proofs.Agreement
import Stencil.Proofs.Tokens

/-! Names as tokens.

A name that stands alone between two delimiters asks for its value. With every preset the scan for the
end of the token finds just the name, but for one case: where the delimiters are brackets and the name
ends in an index, the bracket of the index and the first one of the delimiter are taken for the right
delimiter, so that the token ends one character early and what stands in it is no name
(`Token.recovers_name_iff_and_classify`). What a token that is a name writes is the value of the name
(`Rendering.act_name`). -/
namespace Stencil

/-- The pairs of delimiters that are not made up for a template. -/
def DelimiterStyle.presets : List DelimiterStyle :=
  [doubleBrace, dollarBrace, anglePercent, doubleBracket]

theorem DelimiterStyle.isPreset_of_mem {style : DelimiterStyle} (h : style ∈ presets) :
    style.IsPreset ∨ style = doubleBracket := by
  simpa [presets, IsPreset, or_assoc] using h

/-! ### Delimiters made of brackets -/

/-- The two characters are neither the left nor the right one of the delimiters made of brackets. -/
def Unpaired (a b : Char) : Prop :=
  ¬(a = '[' ∧ b = '[') ∧ ¬(a = ']' ∧ b = ']')

theorem unpaired_of_left {a : Char} (h : a ≠ '[' ∧ a ≠ ']') (b : Char) : Unpaired a b :=
  ⟨fun hp => h.1 hp.1, fun hp => h.2 hp.1⟩

theorem unpaired_of_right {b : Char} (h : b ≠ '[' ∧ b ≠ ']') (a : Char) : Unpaired a b :=
  ⟨fun hp => h.1 hp.2, fun hp => h.2 hp.2⟩

namespace DelimiterStyle
open CloseScan
variable {style : DelimiterStyle} {text : List Char}

theorem proper_of_mem (h : style ∈ presets) : Proper style.left.toList style.right.toList := by
  rcases isPreset_of_mem h with hs | rfl
  · exact hs.proper
  · constructor <;> decide

/-- With the delimiters made of brackets, no two brackets of a kind may be seen in a row, not even where
the text ends. -/
theorem clear_doubleBracket (hb : Quoting.Balanced text)
    (h : (Quoting.outside.mask text ++ [']']).IsChain Unpaired) :
    Clear doubleBracket.left.toList doubleBracket.right.toList doubleBracket.right.toList text where
  balanced := hb
  not_left hi := (rel_of_isInfix h hi).1 ⟨rfl, rfl⟩
  not_right hi := (rel_of_isInfix h hi).2 ⟨rfl, rfl⟩

/-- A text that does no harm to any preset. -/
theorem clear_of_mem (hs : style ∈ presets) (ht : Tame text)
    (hc : (Quoting.outside.mask text ++ [']']).IsChain Unpaired) :
    Clear style.left.toList style.right.toList style.right.toList text := by
  rcases isPreset_of_mem hs with hs | rfl
  · exact hs.clear_right ht
  · exact clear_doubleBracket ht.balanced hc

end DelimiterStyle

/-! ### The parts of a name -/

namespace Name
variable {name : String}

/-- What a name can go on with is no bracket. -/
theorem not_bracket_of_isPart {c : Char} (h : isPart c = true) : c ≠ '[' ∧ c ≠ ']' := by
  constructor <;> rintro rfl <;> exact absurd h (by decide +kernel)

theorem not_bracket_of_isDigit {c : Char} (h : c.isDigit = true) : c ≠ '[' ∧ c ≠ ']' := by
  constructor <;> rintro rfl <;> cases h

/-- An index is digits in brackets. -/
theorem exists_of_isIndex {text : List Char} (h : isIndex text = true) :
    ∃ digits, text = '[' :: (digits ++ [']']) ∧ ∀ c ∈ digits, c.isDigit = true := by
  unfold isIndex at h
  split at h
  · next rest =>
    obtain ⟨-, hclose⟩ := Bool.and_eq_true_iff.1 h
    refine ⟨rest.takeWhile Char.isDigit, ?_, fun c hc => List.mem_takeWhile_imp hc⟩
    rw [← beq_iff_eq.1 hclose, List.takeWhile_append_dropWhile]
  · cases h

/-- A name is a text without brackets, and perhaps an index behind it. -/
theorem exists_parts (h : isValid name = true) :
    ∃ c more index, name.toList = c :: more ++ index ∧ (∀ d ∈ c :: more, isPart d = true) ∧
      (index = [] ∨ isIndex index = true) := by
  unfold isValid at h
  split at h
  · cases h
  · next c rest hname =>
    obtain ⟨hletter, htail⟩ := Bool.and_eq_true_iff.1 h
    have hc : isPart c = true := by simp [isPart, hletter]
    refine ⟨c, rest.takeWhile isPart, rest.dropWhile isPart, ?_,
      List.forall_mem_cons.2 ⟨hc, fun d hd => List.mem_takeWhile_imp hd⟩, ?_⟩
    · rw [List.cons_append, List.takeWhile_append_dropWhile, hname]
    · split at htail
      · next hnil => exact .inl hnil
      · exact .inr htail

/-- No two brackets of a kind stand in a row in a name. -/
theorem isChain_unpaired (h : isValid name = true) : name.toList.IsChain Unpaired := by
  obtain ⟨c, more, index, hname, hmore, hindex⟩ := exists_parts h
  rw [hname]
  refine isChain_append_of_forall (fun d hd => unpaired_of_left (not_bracket_of_isPart (hmore d hd))) ?_
  rcases hindex with rfl | hindex
  · exact List.isChain_nil
  · obtain ⟨digits, rfl, hdigits⟩ := exists_of_isIndex hindex
    have hclosed : (digits ++ [']']).IsChain Unpaired :=
      isChain_append_of_forall (fun d hd => unpaired_of_left (not_bracket_of_isDigit (hdigits d hd)))
        (List.isChain_singleton _)
    refine List.isChain_cons.2 ⟨fun d hd => ⟨fun hp => ?_, nofun⟩, hclosed⟩
    -- Behind the bracket stands a digit or the other bracket.
    rcases List.mem_append.1 (List.mem_of_mem_head? hd) with hd | hd
    · exact (not_bracket_of_isDigit (hdigits d hd)).1 hp.2
    · exact absurd ((List.mem_singleton.1 hd).symm.trans hp.2) (by decide)

/-- Without its last bracket, a name with an index is none. -/
theorem exists_of_closed (h : isValid name = true) {front : List Char}
    (hf : name.toList = front ++ [']']) :
    '[' ∈ front ∧ isValid (String.ofList front) = false := by
  obtain ⟨c, more, index, hname, hmore, hindex⟩ := exists_parts h
  rcases hindex with rfl | hindex
  · -- There is no bracket in it.
    rw [List.append_nil] at hname
    have hlast : ']' ∈ c :: more := by
      rw [← hname, hf]
      exact List.mem_append_right _ (List.mem_singleton.2 rfl)
    exact absurd rfl (not_bracket_of_isPart (hmore _ hlast)).2
  · obtain ⟨digits, rfl, hdigits⟩ := exists_of_isIndex hindex
    have hcut : front ++ [']'] = c :: more ++ '[' :: digits ++ [']'] := by
      simp [← hf, hname]
    obtain ⟨rfl, -⟩ := List.append_inj' hcut rfl
    refine ⟨by simp, ?_⟩
    have hparts : (more ++ '[' :: digits).dropWhile isPart = '[' :: digits := by
      rw [List.dropWhile_append_of_pos fun d hd => hmore d (List.mem_cons_of_mem _ hd)]
      exact List.dropWhile_cons_of_neg (by decide +kernel)
    have hindex : isIndex ('[' :: digits) = false := by
      simp [isIndex, List.dropWhile_eq_nil_iff.2 hdigits]
    unfold isValid
    rw [String.toList_ofList, List.cons_append]
    dsimp only
    rw [hparts]
    exact (congrArg (Text.isLetter c && ·) hindex).trans (Bool.and_false _)

end Name

namespace Token
open CloseScan
variable {g : Grammar} {style : DelimiterStyle} {name : String}

/-! ### What a word is read as -/

/-- A word without a sign in it is taken for a name, if it is no keyword. -/
theorem Grammar.read_word {word : List Char} (hn : word ≠ []) (hp : Text.Plain word)
    (hw : Text.Solid word) (hk : Kind.ofKeyword? (String.ofList (Text.lower word)) = none) :
    g.read word = (g.name word).map .value := by
  have hword : (Text.firstWord word).1 = word := by
    unfold Text.firstWord
    rw [List.span_eq_takeWhile_dropWhile]
    exact List.takeWhile_eq_self_iff.2 fun c hc => by rw [hw c hc]; rfl
  have hfound : ∀ {sign : Char} {piece : List Char}, sign ∈ Text.signs →
      Quoting.find? (sign :: piece) word = none := by
    intro sign piece hs
    rw [← List.append_nil word, find?_append_of_plain hs hp]
    rfl
  have hread := read_of_no_keyword (g := g) Text.blank_nil (hw.tight hn) Text.blank_nil
    (by rw [hword]; exact hk)
  rw [List.nil_append, List.append_nil] at hread
  rw [hread]
  unfold valueOrDefinition
  rw [colon, arrow, hfound (by decide), hfound (by decide)]

/-- A name asks for its value. -/
theorem Grammar.read_name (ha : g.accepts name = true) (hn : Name.isValid name = true)
    (hk : Kind.ofKeyword? (String.ofList (Text.lower name.toList)) = none) :
    g.read name.toList = .ok (.value name) := by
  obtain ⟨hplain, hsolid⟩ := Name.plain_of_isValid hn
  have hname := name_eq ha hn
  rw [(tight_name hn).trim_eq] at hname
  rw [read_word (tight_name hn).ne_nil hplain hsolid hk, hname]
  rfl

/-! ### Where a token that is a name ends -/

/-- A text cannot be two tokens. -/
theorem eq_of_recovers {left right body body' rest rest' : List Char}
    (h : Recovers left right body) (h' : Recovers left right body')
    (he : body ++ right ++ rest = body' ++ right ++ rest') : body = body' := by
  obtain ⟨-, -, htext⟩ := h [body ++ right ++ rest] rest (List.flatten_singleton ..)
  obtain ⟨-, -, htext'⟩ := h' [body ++ right ++ rest] rest' ((List.flatten_singleton ..).trans he)
  exact htext.symm.trans htext'

theorem tame_of_plain {text : List Char} (h : Text.Plain text) : Tame text := by
  have htame := tame_nil.append_unquoted h.harmless
  rwa [List.append_nil] at htame

/-- A text without signs that has no two brackets of a kind in a row, not even where the delimiter
begins. -/
theorem recovers_of_plain (hs : style ∈ DelimiterStyle.presets) {text : List Char}
    (hp : Text.Plain text) (hc : (text ++ [']']).IsChain Unpaired) :
    Recovers style.left.toList style.right.toList text := by
  have hmask := (Quoting.of_notMem_mark fun hm => hp _ hm (by decide)).2
  refine recovers_of_clear (DelimiterStyle.proper_of_mem hs)
    (DelimiterStyle.clear_of_mem hs (tame_of_plain hp) ?_)
  rw [hmask]
  exact hc

/-- Where nothing but the brackets of the delimiter could be mixed up with the name. -/
theorem recovers_name (hs : style ∈ DelimiterStyle.presets) (hn : Name.isValid name = true)
    (hl : ¬(style = .doubleBracket ∧ name.toList.getLast? = some ']')) :
    Recovers style.left.toList style.right.toList name.toList := by
  obtain ⟨hplain, -⟩ := Name.plain_of_isValid hn
  rcases DelimiterStyle.isPreset_of_mem hs with hpreset | rfl
  · exact recovers_of_clear hpreset.proper (hpreset.clear_right (tame_of_plain hplain))
  · refine recovers_of_plain hs hplain (List.isChain_append.2
      ⟨Name.isChain_unpaired hn, List.isChain_singleton _, fun c hc d hd => ?_⟩)
    have hc : c ≠ ']' := by
      rintro rfl
      exact hl ⟨rfl, hc⟩
    cases hd
    exact ⟨by simp, fun hp => hc hp.1⟩

/-- **A name is a token of its own**, with every preset and whatever follows, unless the delimiters are
brackets and the name ends in one; as the text of a token, it asks for its value. In that one case the
token ends at the bracket of the index, and what is left of the name is refused. -/
theorem recovers_name_iff_and_classify (hs : style ∈ DelimiterStyle.presets)
    (hn : Name.isValid name = true)
    (hk : Kind.ofKeyword? (String.ofList (Text.lower name.toList)) = none) :
    (Recovers style.left.toList style.right.toList name.toList ↔
      ¬(style = .doubleBracket ∧ name.toList.getLast? = some ']')) ∧
    (∀ id, (Grammar.ofStyle style).classify id name.toList =
      .ok ⟨id, .value name, name.toList.length⟩) ∧
    ∀ front, style = .doubleBracket → name.toList = front ++ [']'] →
      Recovers style.left.toList style.right.toList front ∧
        ∀ id, (Grammar.ofStyle style).classify id front =
          .error (.token id (.invalidName (String.ofList front))) := by
  obtain ⟨hplain, hsolid⟩ := Name.plain_of_isValid hn
  have hcut : ∀ front, name.toList = front ++ [']'] →
      Recovers style.left.toList style.right.toList front := fun front hf => by
    refine recovers_of_plain hs (fun c hc => hplain c ?_) (hf ▸ Name.isChain_unpaired hn)
    rw [hf]
    exact List.mem_append_left _ hc
  refine ⟨⟨fun hr => ?_, recovers_name hs hn⟩, fun id =>
    Grammar.classify_of_read (Grammar.read_name hn hn hk) id, fun front _ hf => ⟨hcut front hf, ?_⟩⟩
  · rintro ⟨rfl, hlast⟩
    obtain ⟨front, hf⟩ := List.getLast?_eq_some_iff.1 hlast
    -- The bracket of the index and the delimiter begin with the delimiter.
    have hwhole : name.toList ++ DelimiterStyle.doubleBracket.right.toList ++ [] =
        front ++ DelimiterStyle.doubleBracket.right.toList ++ [']'] := by
      rw [hf, List.append_nil, List.append_assoc, List.append_assoc]
      rfl
    have heq := eq_of_recovers hr (hcut front hf) hwhole
    simp [hf] at heq
  · obtain ⟨hopen, hinvalid⟩ := Name.exists_of_closed hn hf
    have hmem : ∀ c ∈ front, c ∈ name.toList := fun c hc => hf ▸ List.mem_append_left _ hc
    have hread := Grammar.read_word (g := .ofStyle style) (List.ne_nil_of_mem hopen)
      (fun c hc => hplain c (hmem c hc)) (fun c hc => hsolid c (hmem c hc))
      (Kind.ofKeyword?_lower (by decide) hopen)
    have hname : (Grammar.ofStyle style).name front = .error (.invalidName (String.ofList front)) :=
      if_neg (Bool.eq_false_iff.1 hinvalid)
    intro id
    unfold Grammar.classify
    rw [hread, hname]
    rfl

/-- With brackets for delimiters, a name with an index is cut. -/
theorem recovers_name_iff_and_classify_of_index :
    DelimiterStyle.doubleBracket ∈ DelimiterStyle.presets ∧ Name.isValid "people[2]" = true ∧
      Kind.ofKeyword? (String.ofList (Text.lower "people[2]".toList)) = none ∧
      ¬Recovers "[[".toList "]]".toList "people[2]".toList ∧
      (Grammar.ofStyle .doubleBracket).classify 1 "people[2]".toList =
        .ok ⟨1, .value "people[2]", 9⟩ ∧
      Recovers "[[".toList "]]".toList "people[2".toList ∧
      (Grammar.ofStyle .doubleBracket).classify 1 "people[2".toList =
        .error (.token 1 (.invalidName "people[2")) := by
  have hstyle : DelimiterStyle.doubleBracket ∈ DelimiterStyle.presets := by decide
  have hname : Name.isValid "people[2]" = true := by decide +kernel
  have hword : Kind.ofKeyword? (String.ofList (Text.lower "people[2]".toList)) = none := by
    decide +kernel
  obtain ⟨hiff, hclassify, hcut⟩ := recovers_name_iff_and_classify hstyle hname hword
  obtain ⟨hrecovers, hrefused⟩ := hcut "people[2".toList rfl (by decide +kernel)
  exact ⟨hstyle, hname, hword, fun hr => hiff.1 hr ⟨rfl, by decide +kernel⟩, hclassify 1, hrecovers,
    hrefused 1⟩

/-- So not every name can be written as a token with every preset. -/
theorem not_recovers_of_index :
    ¬∀ style ∈ DelimiterStyle.presets, ∀ name, Name.isValid name = true →
      Kind.ofKeyword? (String.ofList (Text.lower name.toList)) = none →
      Recovers style.left.toList style.right.toList name.toList := by
  intro h
  obtain ⟨-, -, htext⟩ := h .doubleBracket (by decide) "people[2]" (by decide +kernel)
    (by decide +kernel) ["people[2]]]!".toList] "!".toList (by decide +kernel)
  exact absurd htext (by decide +kernel)

end Token

/-! ### What a name writes -/

namespace Rendering
variable {κ σ : Type} {host : Host κ} {r : Rendering κ σ} {name value : String}

/-- A token that is a name writes the value of the name. -/
theorem act_name (hc : host.callback = none) (hl : r.state.frames.suppressed = false)
    (hr : (host.grammar r.state.vars).read name.toList = .ok (.value name))
    (hv : r.state.vars.get? name = some (.str value)) :
    act host r name.toList =
      expand host { r with state := r.counted } value.toList (r.state.tokens + 1) := by
  have hresolution : host.resolution r.counted.vars (.value name) = ⟨.replace, some value⟩ := by
    have hlookup : host.lookup r.counted.vars name = some (.str value) := by
      unfold Host.lookup
      rw [show r.counted.vars = r.state.vars from rfl, hv]
      rfl
    unfold Host.resolution Host.resolve
    dsimp only
    rw [hlookup]
    rfl
  have hinterpret : host.interpret ⟨r.counted.tokens, .value name, name.toList.length⟩
      r.passage.level r.passage.window.cursor r.counted = (.ok ⟨.replace, some value⟩, r.counted) := by
    rw [Host.interpret_value rfl hc, show r.counted.frames.suppressed = false from hl, hresolution]
    rfl
  have hresolves : r.Resolves host name.toList ⟨r.counted.tokens, .value name, name.toList.length⟩
      ⟨.replace, some value⟩ r.counted :=
    ⟨Token.Grammar.classify_of_read hr _, hinterpret⟩
  rw [act_of_resolves hresolves]
  rfl

end Rendering
end Stencil
