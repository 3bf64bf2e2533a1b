import Stencil.Proofs.Escaping
import Stencil.Proofs.Naming
import Stencil.Proofs.Refinement

/-! Values that refer to each other in turn.

Where the value of a name holds a token that is the next name of a cycle, each value is a passage in the
one before, and what stands in front of the token in it is written on the way (`Rendering.Stands.step_name`).
So a rendering goes down by one passage with every token, until the next one would be too deep
(`Cycle.told_run`): there it fails, with a number of tokens and a text that depend on nothing else
(`Renderer.render_cycle`). -/
namespace Stencil

/-! ### A token behind literal text -/

/-- Literal text in which the delimiter does not begin and that has no backslash in it ends where the
delimiter stands. -/
theorem Text.literalFront_of_notMem {left front : List Char} {sign : Char}
    (hl : left.head? = some sign) (hs : sign ∉ front) (he : Quoting.escape ∉ front) (escapes : Bool)
    (rest : List Char) :
    literalFront left escapes [] (front ++ (left ++ rest)) = (front, some rest) := by
  have hn : left ≠ [] := by
    rintro rfl
    cases hl
  have hfind : find? left (front ++ (left ++ rest)) = some front.length := by
    refine find?_eq_some_of_least (by rw [List.drop_left]; exact List.prefix_append ..) ?_
    rintro m hm hp
    rw [List.drop_append_of_le_length (Nat.le_of_lt hm), List.drop_eq_getElem_cons hm] at hp
    obtain ⟨more, hmore⟩ := hp
    obtain ⟨left, rfl⟩ := List.head?_eq_some_iff.1 hl
    exact hs (List.head_eq_of_cons_eq hmore ▸ List.getElem_mem hm)
  have hlast : front.getLast? ≠ some Quoting.escape := fun h => he (List.mem_of_getLast? h)
  unfold literalFront
  rw [dif_neg hn]
  split
  · next hnone => cases hfind.symm.trans hnone
  · next n hsome =>
    cases hfind.symm.trans hsome
    dsimp only
    rw [List.nil_append, List.take_left, ← List.drop_drop, List.drop_left, List.drop_left,
      if_neg (by simp [hlast])]

/-- Behind such a text, a token is the next piece. -/
theorem Token.Grammar.pieces_token {g : Grammar} {front raw : List Char} {sign : Char}
    (hl : g.left.head? = some sign) (hs : sign ∉ front) (he : Quoting.escape ∉ front)
    (hr : CloseScan.Recovers g.left g.right raw) (escapes : Bool) (total : Nat) (back : List Char) :
    g.pieces escapes total (front ++ (g.left ++ (raw ++ g.right ++ back))) =
      Piece.ofLiteral front ++ .token raw :: g.pieces escapes total back := by
  have hn : g.left ≠ [] := by
    intro hn
    rw [hn] at hl
    cases hl
  obtain ⟨hfound, hconsumed, htext⟩ := hr [raw ++ g.right ++ back] back (List.flatten_singleton ..)
  rw [CloseScan.scanSpans_eq, List.flatten_singleton] at hfound hconsumed htext
  have hleft : g.pieces escapes total (g.left ++ (raw ++ g.right ++ back)) =
      .token raw :: g.pieces escapes total back := by
    rw [pieces_left hn, if_pos hfound, htext, hconsumed, List.drop_left]
  rw [pieces_front, Text.literalFront_of_notMem hl hs he, ← hleft]
  rfl

namespace Rendering
variable {κ σ : Type} [CharSource σ] [SteadySource σ] {host : Host κ} {g : Token.Grammar}
  {site : Site σ} {front : List Char} {rest : List Piece} {frames : Frames} {t : Told}
  {r : Rendering κ σ}

namespace Stands

/-- Literal text in front of a piece is written in the step that deals with the piece. -/
theorem step_ofLiteral (h : r.Stands g host site (Piece.ofLiteral front ++ rest) frames t)
    (hf : frames.suppressed = false) :
    ∃ r' : Rendering κ σ, r.step host = r'.step host ∧
      r'.Stands g host site rest frames { t with text := t.text ++ String.ofList front } := by
  unfold Piece.ofLiteral at h
  split at h
  · next hempty =>
    obtain rfl := List.isEmpty_iff.1 hempty
    refine ⟨r, rfl, ?_⟩
    rw [String.ofList_nil, String.append_empty]
    exact h
  · obtain ⟨r', hstep, hstands⟩ := h.step_literal
    rw [hf, if_neg Bool.false_ne_true] at hstands
    exact ⟨r', hstep, hstands⟩

omit [CharSource σ] [SteadySource σ] in
/-- After a token was counted the rendering stands where it stood. -/
theorem counted (h : r.Stands g host site rest frames t) :
    ({ r with state := r.counted } : Rendering κ σ).Stands g host site rest frames
      { t with tokens := t.tokens + 1 } where
  level := h.level
  opened := h.opened
  within := h.within
  outer := h.outer
  whole := h.whole
  room := h.room
  pieces := h.pieces
  frames := h.frames
  told := by
    rw [← h.told]
    rfl
  grammar := h.grammar

/-- A name behind literal text: the text is written, and then the value of the name. -/
theorem step_name {name value : String}
    (h : r.Stands g host site (Piece.ofLiteral front ++ .token name.toList :: rest) frames t)
    (hc : host.callback = none) (hf : frames.suppressed = false)
    (hr : g.read name.toList = .ok (.value name)) (hv : t.vars.get? name = some (.str value)) :
    ∃ r' : Rendering κ σ, r.step host = expand host r' value.toList (t.tokens + 1) ∧
      r'.Stands g host site rest frames
        ⟨t.text ++ String.ofList front, t.vars, t.tokens + 1⟩ := by
  obtain ⟨r₁, hfront, h₁⟩ := h.step_ofLiteral hf
  obtain ⟨r₂, h₂, hstep⟩ := h₁.token
  have hvars : r₂.state.vars = t.vars := congrArg Told.vars h₂.told
  have htokens : r₂.state.tokens = t.tokens := congrArg Told.tokens h₂.told
  have hact := act_name (r := r₂) hc (by rw [h₂.frames]; exact hf)
    (by rw [hvars, h₂.grammar]; exact hr) (by rw [hvars]; exact hv)
  rw [htokens] at hact
  exact ⟨_, hfront.trans (hstep.trans hact), h₂.counted⟩

end Stands
end Rendering

/-! ### Cycles -/

/-- A name as a token. -/
def reference (style : DelimiterStyle) (name : String) : List Char :=
  style.left.toList ++ (name.toList ++ style.right.toList)

/-- The value of every name refers to the next one, and that of the last to the first, with nothing in
front of the token that could be mistaken for one. -/
structure Cycle (vars : Variables) (count : Nat) (name : Nat → String) (front back : Nat → List Char) :
    Prop where
  pos : 0 < count
  valid : ∀ i < count, Name.isValid (name i) = true
  accepted : ∀ i < count, vars.accepts (name i) = true
  no_keyword : ∀ i < count, Token.Kind.ofKeyword? (String.ofList (Text.lower (name i).toList)) = none
  no_brace : ∀ i < count, '{' ∉ front i
  no_escape : ∀ i < count, Quoting.escape ∉ front i
  value : ∀ i < count, vars.get? (name i) = some (.str (String.ofList
    (front i ++ reference .doubleBrace (name ((i + 1) % count)) ++ back i)))

namespace Cycle
variable {vars : Variables} {count : Nat} {name : Nat → String} {front back : Nat → List Char}

/-- Going round. -/
theorem lt (h : Cycle vars count name front back) (i : Nat) : i % count < count :=
  Nat.mod_lt i h.pos

theorem value_mod (h : Cycle vars count name front back) (i : Nat) :
    vars.get? (name (i % count)) = some (.str (String.ofList
      (front (i % count) ++ reference .doubleBrace (name ((i + 1) % count)) ++ back (i % count)))) := by
  rw [h.value _ (h.lt i), Nat.mod_add_mod]

variable {κ : Type} {host : Host κ}

theorem read_name (h : Cycle vars count name front back) (i : Nat) :
    (host.grammar vars).read (name (i % count)).toList = .ok (.value (name (i % count))) :=
  Token.Grammar.read_name (h.accepted _ (h.lt i)) (h.valid _ (h.lt i)) (h.no_keyword _ (h.lt i))

/-- The pieces of a text with one of the names in it. -/
theorem pieces_reference (h : Cycle vars count name front back)
    (hd : host.options.delimiters = .doubleBrace) (literal : List Char) (hs : '{' ∉ literal)
    (he : Quoting.escape ∉ literal) (i : Nat) (escapes : Bool) (total : Nat) (more : List Char) :
    (host.grammar vars).pieces escapes total
        (literal ++ reference .doubleBrace (name (i % count)) ++ more) =
      Piece.ofLiteral literal ++ .token (name (i % count)).toList ::
        (host.grammar vars).pieces escapes total more := by
  have hleft : (host.grammar vars).left = DelimiterStyle.doubleBrace.left.toList := by
    rw [← hd]
    rfl
  have hright : (host.grammar vars).right = DelimiterStyle.doubleBrace.right.toList := by
    rw [← hd]
    rfl
  have hrecovers : CloseScan.Recovers (host.grammar vars).left (host.grammar vars).right
      (name (i % count)).toList := by
    rw [hleft, hright]
    exact Token.recovers_name (by decide) (h.valid _ (h.lt i)) (by simp)
  have hpieces := Token.Grammar.pieces_token (by rw [hleft]; rfl) hs he hrecovers escapes total more
  rw [reference, ← hleft, ← hright]
  simpa only [List.append_assoc] using hpieces

theorem contains_reference (hd : host.options.delimiters = .doubleBrace) (literal : List Char)
    (name : String) (more : List Char) :
    Text.contains host.left (literal ++ reference .doubleBrace name ++ more) = true := by
  have hleft : host.left = DelimiterStyle.doubleBrace.left.toList := by rw [Host.left, hd]
  rw [hleft, Text.contains, Option.isSome_iff_ne_none]
  intro hnone
  refine Text.find?_eq_none hnone literal.length ?_
  rw [List.append_assoc, List.drop_left, reference, List.append_assoc]
  exact List.prefix_append ..

variable {σ : Type} [CharSource σ] [SteadySource σ] {site : Rendering.Site σ} {rest : List Piece}
  {t : Told} {r : Rendering κ σ}

/-- What stands in front of the tokens of so many passages, from one of them on. -/
def written (count : Nat) (front : Nat → List Char) (i depth : Nat) : List Char :=
  (List.range depth).flatMap fun j => front ((i + j) % count)

theorem written_succ (count : Nat) (front : Nat → List Char) (i depth : Nat) :
    written count front i (depth + 1) = front (i % count) ++ written count front (i + 1) depth := by
  unfold written
  rw [List.range_succ_eq_map, List.flatMap_cons, List.flatMap_map, Nat.add_zero]
  simp only [Nat.add_assoc, Nat.add_comm 1]

/-- A token of the cycle begins a passage that stands in front of the next one, or would be too deep. -/
theorem step_eq (h : Cycle vars count name front back) (hd : host.options.delimiters = .doubleBrace)
    (hc : host.callback = none) {literal : List Char} {i : Nat}
    (hs : r.Stands (host.grammar vars) host site
      (Piece.ofLiteral literal ++ .token (name (i % count)).toList :: rest) [] t)
    (hv : t.vars = vars) :
    if host.options.maxDepth < site.level + 1 then
      (r.step host).told = some (.error (.recursionLimit host.options.maxDepth (t.tokens + 1)),
        ⟨t.text ++ String.ofList literal, vars, t.tokens + 1⟩)
    else ∃ (r' : Rendering κ σ) (site' : Rendering.Site σ) (rest' : List Piece),
      r.step host = .running r' ∧ site'.level = site.level + 1 ∧
      r'.Stands (host.grammar vars) host site'
        (Piece.ofLiteral (front (i % count)) ++ .token (name ((i + 1) % count)).toList :: rest') []
        ⟨t.text ++ String.ofList literal, vars, t.tokens + 1⟩ := by
  subst hv
  obtain ⟨r', hstep, hs'⟩ := hs.step_name hc rfl (h.read_name i) (h.value_mod i)
  rw [String.toList_ofList, Rendering.expand, if_pos (contains_reference hd ..), hs'.level] at hstep
  by_cases hdeep : host.options.maxDepth < site.level + 1
  · rw [if_pos hdeep] at hstep ⊢
    rw [hstep, ← hs'.told]
    rfl
  · rw [if_neg hdeep] at hstep ⊢
    have hentered := hs'.enter (front (i % count) ++ reference .doubleBrace (name ((i + 1) % count)) ++
      back (i % count)) (t.tokens + 1)
    rw [h.pieces_reference hd _ (h.no_brace _ (h.lt i)) (h.no_escape _ (h.lt i)) (i + 1)] at hentered
    exact ⟨_, _, _, hstep, rfl, hentered⟩

/-- So many passages further down the rendering fails. -/
theorem told_run (h : Cycle vars count name front back) (hd : host.options.delimiters = .doubleBrace)
    (hc : host.callback = none) {depth i : Nat} {literal : List Char}
    (hl : site.level + depth = host.options.maxDepth)
    (hs : r.Stands (host.grammar vars) host site
      (Piece.ofLiteral literal ++ .token (name (i % count)).toList :: rest) [] t)
    (hv : t.vars = vars) :
    (r.run host (depth + 1)).told =
      some (.error (.recursionLimit host.options.maxDepth (t.tokens + depth + 1)),
        ⟨t.text ++ String.ofList (literal ++ written count front i depth), vars,
          t.tokens + depth + 1⟩) := by
  induction depth generalizing site rest t r i literal with
  | zero =>
    have hstep := h.step_eq hd hc hs hv
    rw [if_pos (by omega)] at hstep
    rw [written, List.range_zero, List.flatMap_nil, List.append_nil]
    exact Rendering.run_of_told hstep 0
  | succ depth ih =>
    have hstep := h.step_eq hd hc hs hv
    rw [if_neg (by omega)] at hstep
    obtain ⟨r', site', rest', hrunning, hlevel, hs'⟩ := hstep
    have htokens : t.tokens + 1 + depth + 1 = t.tokens + (depth + 1) + 1 := by omega
    have hrun := ih (by omega) hs' rfl
    dsimp only at hrun
    rw [htokens, String.append_assoc, ← String.ofList_append, ← written_succ] at hrun
    exact (congrArg Progress.told (Rendering.run_of_running hrunning _)).trans hrun

omit [CharSource σ] [SteadySource σ] in
/-- A rendering of the first name as a template begins in front of it. -/
theorem stands_start (h : Cycle vars count name front back)
    (hd : host.options.delimiters = .doubleBrace) (memory : κ) (pool : Pool) :
    let template := reference .doubleBrace (name 0)
    (Rendering.start (.fixed template : Window σ) 0 { vars, memory } pool {}).Stands
      (host.grammar vars) host ⟨0, 0, none, [], template⟩
      (Piece.ofLiteral [] ++ .token (name (0 % count)).toList :: []) [] ⟨"", vars, 0⟩ := by
  intro template
  have hroom : ({} : Sink).room = none := rfl
  have hstart := Rendering.stands_start host template vars memory pool hroom (σ := σ)
  have hpieces := h.pieces_reference hd [] List.not_mem_nil List.not_mem_nil 0 false template.length []
  rw [Token.Grammar.pieces_nil, List.nil_append, List.append_nil] at hpieces
  have hfirst : reference .doubleBrace (name (0 % count)) = template := by rw [Nat.zero_mod]
  rw [hfirst] at hpieces
  rw [hpieces] at hstart
  exact hstart

/-- What is left of a rendering that went round as deep as values may be nested: it failed at the token
behind as many as the limit is, and what it wrote is what stands in front of so many tokens. -/
structure Exhausted (depth count : Nat) (front : Nat → List Char) (vars : Variables)
    (out : Rendered κ) : Prop where
  result : out.result = .error (.recursionLimit depth (depth + 1))
  text : out.sink.text = String.ofList ((List.range depth).flatMap fun j => front (j % count))
  vars_eq : out.vars = vars

theorem Exhausted.of_seen {depth : Nat} {out out' : Rendered κ}
    (h : Exhausted depth count front vars out) (hs : out'.seen = out.seen) :
    Exhausted depth count front vars out' where
  result := (congrArg Prod.fst hs).trans h.result
  text := (congrArg (fun seen => seen.2.1.text) hs).trans h.text
  vars_eq := (congrArg (fun seen => seen.2.2.1) hs).trans h.vars_eq

end Cycle

namespace Renderer
variable {κ : Type} {vars : Variables} {count : Nat} {name : Nat → String}
  {front back : Nat → List Char}

/-- **Values that refer to each other in turn always hit the recursion limit, at a known place.** Let
the values of any number of names form a cycle. Then whatever the limit is, rendering the first name as a
template fails in so many steps and one more with the limit, at the token behind as many tokens as the
limit is; what was written by then is what stands in front of the tokens of as many passages, and the
variables are as they were. So it is also if the template comes from a reader, in whatever pieces. -/
theorem render_cycle (renderer : Renderer κ) (hd : renderer.host.options.delimiters = .doubleBrace)
    (hc : renderer.host.callback = none) (h : Cycle vars count name front back) (memory : κ)
    (pool : Pool) {steps : Nat} (hs : renderer.host.options.maxDepth < steps) :
    let depth := renderer.host.options.maxDepth
    let template := reference .doubleBrace (name 0)
    (∃ out, renderer.renderText steps (String.ofList template) vars memory pool = some out ∧
      Cycle.Exhausted depth count front vars out) ∧
    ∀ reader : ByteReader, Text.ofUtf8? reader.data = some template → reader.failure = none →
      ∃ out, renderer.renderReader steps reader vars memory pool {} = some out ∧
        Cycle.Exhausted depth count front vars out := by
  intro depth template
  have hstands := h.stands_start hd memory pool (σ := TextSource)
  have hrun := h.told_run hd hc (Nat.zero_add _) hstands rfl
  obtain ⟨out, hout, hresult, htext, hvars⟩ :=
    Rendered.ofProgress?_of_told (Rendering.run_of_le hrun hs)
  have hexhausted : Cycle.Exhausted depth count front vars out := by
    refine ⟨?_, ?_, hvars⟩
    · rw [hresult, Nat.zero_add]
    · rw [htext, String.empty_append, List.nil_append, Cycle.written]
      simp only [Nat.zero_add]
      rfl
  have hrendered : renderer.renderText steps (String.ofList template) vars memory pool = some out := by
    rw [renderText, String.toList_ofList]
    exact hout
  refine ⟨⟨out, hrendered, hexhausted⟩, fun reader hdata hfailure => ?_⟩
  obtain ⟨out', hout', hseen⟩ := renderer.exists_renderReader hdata hfailure hrendered
  exact ⟨out', hout', hexhausted.of_seen hseen⟩

/-- Two values that refer to each other, three passages deep. -/
theorem render_cycle_of_two :
    let renderer : Renderer Unit := ⟨{ options := { maxDepth := 3 } }, rfl⟩
    let vars : Variables := .ofList [("a", .str "x{{b}}"), ("b", .str "y{{a}}!")]
    let name := fun i => if i = 0 then "a" else "b"
    let front := fun i => if i = 0 then "x".toList else "y".toList
    let back := fun i => if i = 0 then [] else "!".toList
    Cycle vars 2 name front back ∧
      ∃ out, renderer.renderText 4 "{{a}}" vars () ⟨[], 0, 0⟩ = some out ∧
        out.result = .error (.recursionLimit 3 4) ∧ out.sink.text = "xyx" ∧ out.vars = vars := by
  intro renderer vars name front back
  have hfirst : String.ofList (front 0 ++ reference .doubleBrace (name 1) ++ back 0) = "x{{b}}" := by
    decide +kernel
  have hsecond : String.ofList (front 1 ++ reference .doubleBrace (name 0) ++ back 1) = "y{{a}}!" := by
    decide +kernel
  have hcycle : Cycle vars 2 name front back := by
    refine ⟨by decide, by decide +kernel, by decide +kernel, by decide +kernel, by decide +kernel,
      by decide +kernel, fun i hi => ?_⟩
    match i, hi with
    | 0, _ => exact (congrArg (fun text => some (Value.str text)) hfirst.symm :)
    | 1, _ => exact (congrArg (fun text => some (Value.str text)) hsecond.symm :)
  have hsteps : renderer.host.options.maxDepth < 4 := by decide
  have htemplate : String.ofList (reference .doubleBrace (name 0)) = "{{a}}" := by decide +kernel
  have hwritten : String.ofList ((List.range 3).flatMap fun j => front (j % 2)) = "xyx" := by
    decide +kernel
  obtain ⟨⟨out, hout, hexhausted⟩, -⟩ :=
    renderer.render_cycle rfl rfl hcycle () ⟨[], 0, 0⟩ hsteps
  rw [htemplate] at hout
  exact ⟨hcycle, out, hout, hexhausted.result, hexhausted.text.trans hwritten, hexhausted.vars_eq⟩

end Renderer

end Stencil
