import Stencil.Proofs.Tokens
import Stencil.Renderer

/-! A rendering does what its template means.

Wherever a rendering stands in front of the pieces of some blocks it does what the blocks mean, up to
the token that closes them or the end of the passage (`Rendering.Follows.of_spells`). This is an
induction on how the blocks are spelled, with one lemma for each kind of block; the rounds of a loop
are inductions of their own (`Does.repeatWhile`, `Does.takeUp`). Values with tokens in them are an
induction on how much deeper values may be nested (`Rendering.expands_expansion`). -/
namespace Stencil

namespace Rendering
variable {κ σ : Type} [CharSource σ] [SteadySource σ] {host : Host κ} {g : Token.Grammar}
  {site : Site σ} {pieces : List Piece} {inside : Option (Token.Kind × Nat)} {frames : Frames}
  {t : Told} {r : Rendering κ σ} {limit : Nat} {expand : Nat → List Char → Effect Unit}

/-! ### The end of a passage -/

/-- A passage whose blocks are all closed is left for the one that it stands in. -/
theorem Stands.leaves (h : r.Stands g host site [] frames t) (hf : frames.length = site.opened) :
    ∃ r' : Rendering κ σ, r'.Stands g host site [] frames t ∧ r.step host =
      match site.outer with
      | [] => .finished r'
      | passage :: outer => .running { r' with passage, outer } := by
  obtain ⟨r', hst, hstep⟩ := h.ending
  refine ⟨r', hst, hstep.trans ?_⟩
  have hleave : r'.leave = leave.done r' := by
    unfold leave
    rw [hst.frames, hst.opened, ← hf]
    cases frames with
    | nil => rfl
    | cons top below => exact if_neg (Nat.lt_irrefl _)
  rw [hleave]
  show (match r'.outer with
    | [] => Progress.finished r'
    | passage :: outer => Progress.running { r' with passage, outer }) = _
  rw [hst.outer]

/-- A passage that ends inside a block fails. -/
theorem Stands.unended {kind : Token.Kind} {id : Nat} (h : r.Stands g host site [] frames t)
    (hi : Inside site (some (kind, id)) frames) :
    (r.step host).told = some (.error (.unterminatedBlock kind id), t) := by
  obtain ⟨r', hst, hstep⟩ := h.ending
  cases hi with
  | @block top below hl ho =>
    have hleave : r'.leave = .failed (.unterminatedBlock top.kind top.token.id) r' := by
      unfold leave
      rw [hst.frames, hst.opened]
      exact if_pos (Nat.lt_succ_of_le ho)
    rw [hstep, hleave, ← hst.told]
    rfl

/-! ### Blocks -/

/-- Where blocks end: in front of the token that closes them, or at the end of a passage whose blocks
are all closed. -/
def Ends (g : Token.Grammar) (host : Host κ) (site : Site σ)
    (inside : Option (Token.Kind × Nat)) (frames : Frames) (stop : Option (Token.Kind × List Piece))
    (t : Told) (r : Rendering κ σ) : Prop :=
  match stop with
  | none => inside = none ∧ r.Stands g host site [] frames t
  | some (kind, rest) => ∃ raw directive, g.read raw = .ok directive ∧ directive.kind = kind ∧
      r.Stands g host site (.token raw :: rest) frames t

/-- Wherever a rendering stands in front of these pieces, it does what the blocks mean that they
spell. -/
def Follows (host : Host κ) (site : Site σ) (limit : Nat) (expand : Nat → List Char → Effect Unit)
    (g : Token.Grammar) (within : Option Token.Kind) (pieces : List Piece) (blocks : Blocks)
    (stop : Option (Token.Kind × List Piece)) : Prop :=
  ∀ {inside : Option (Token.Kind × Nat)} {frames : Frames} {t : Told} {r : Rendering κ σ}
    {live : Bool}, r.Stands g host site pieces frames t → Inside site inside frames →
    inside.map (·.1) = within → live = !frames.suppressed →
    r.Does host limit (fun _ => Ends g host site inside frames stop)
      (blocks.eval host limit expand site.within inside live t)

namespace Follows
variable {within : Option Token.Kind} {pieces more last : List Piece} {raw : List Char}
  {condition : Token.Condition} {yes no body rest : Blocks} {name sequence : String}
  {stop : Option (Token.Kind × List Piece)}

theorem ending : Follows host site limit expand g within [] .ending none := by
  intro inside frames t r live hs hi hw hl
  cases inside with
  | none => exact .goes (.refl host r) ⟨rfl, hs⟩
  | some inside => exact .fails 1 (run_of_told (hs.unended hi) 0)

theorem text {literal : List Char} (h : Follows host site limit expand g within pieces rest stop) :
    Follows host site limit expand g within (.literal literal :: pieces) (.text literal rest)
      stop := by
  intro inside frames t r live hs hi hw hl
  rw [Blocks.eval_text]
  exact (hs.tell hl).bind fun _ _ _ hs' => h hs' hi hw hl

theorem ifUnclosed (hr : g.read raw = .ok (.ifOpen condition))
    (hy : Follows host site limit expand g (some .ifOpen) pieces yes none) :
    Follows host site limit expand g within (.token raw :: pieces) (.ifThen condition yes .ending)
      none := by
  intro inside frames t r live hs hi hw hl
  refine (hs.ask hr (.inl rfl) hl).does.bind fun (id, holds) t₁ r₁ ⟨frame, ho, h₁⟩ => ?_
  refine (hy h₁ (ho.inside hi.opened_le) rfl ho.holds_eq).bind fun _ t₂ r₂ h₂ => ?_
  cases h₂.1

theorem ifThen (hr : g.read raw = .ok (.ifOpen condition))
    (hy : Follows host site limit expand g (some .ifOpen) pieces yes (some (.ifClose, more)))
    (h : Follows host site limit expand g within more rest stop) :
    Follows host site limit expand g within (.token raw :: pieces) (.ifThen condition yes rest)
      stop := by
  intro inside frames t r live hs hi hw hl
  refine (hs.ask hr (.inl rfl) hl).does.bind fun (id, holds) t₁ r₁ ⟨frame, ho, h₁⟩ => ?_
  refine (hy h₁ (ho.inside hi.opened_le) rfl ho.holds_eq).bind fun _ t₂ r₂ h₂ => ?_
  obtain ⟨raw, directive, hclose, hk, h₂⟩ := h₂
  exact (h₂.closeIf hclose hk ho).does.bind fun _ _ _ h₃ => h h₃ hi hw hl

theorem elseUnclosed (hr : g.read raw = .ok (.ifOpen condition))
    (hy : Follows host site limit expand g (some .ifOpen) pieces yes (some (.elseMark, more)))
    (hn : Follows host site limit expand g (some .elseMark) more no none) :
    Follows host site limit expand g within (.token raw :: pieces)
      (.ifElse condition yes no .ending) none := by
  intro inside frames t r live hs hi hw hl
  refine (hs.ask hr (.inl rfl) hl).does.bind fun (id, holds) t₁ r₁ ⟨frame, ho, h₁⟩ => ?_
  refine (hy h₁ (ho.inside hi.opened_le) rfl ho.holds_eq).bind fun _ t₂ r₂ h₂ => ?_
  obtain ⟨raw, directive, helse, hk, h₂⟩ := h₂
  refine (h₂.elseMark helse hk ho).does.bind fun mark t₃ r₃ ⟨other, hm, h₃⟩ => ?_
  have hopened := Nat.le_succ_of_le hi.opened_le
  refine (hn h₃ (hm.inside hopened) rfl hm.holds_eq).bind fun _ t₄ r₄ h₄ => ?_
  cases h₄.1

theorem ifElse (hr : g.read raw = .ok (.ifOpen condition))
    (hy : Follows host site limit expand g (some .ifOpen) pieces yes (some (.elseMark, more)))
    (hn : Follows host site limit expand g (some .elseMark) more no (some (.ifClose, last)))
    (h : Follows host site limit expand g within last rest stop) :
    Follows host site limit expand g within (.token raw :: pieces) (.ifElse condition yes no rest)
      stop := by
  intro inside frames t r live hs hi hw hl
  refine (hs.ask hr (.inl rfl) hl).does.bind fun (id, holds) t₁ r₁ ⟨frame, ho, h₁⟩ => ?_
  refine (hy h₁ (ho.inside hi.opened_le) rfl ho.holds_eq).bind fun _ t₂ r₂ h₂ => ?_
  obtain ⟨raw, directive, helse, hk, h₂⟩ := h₂
  refine (h₂.elseMark helse hk ho).does.bind fun mark t₃ r₃ ⟨other, hm, h₃⟩ => ?_
  have hopened := Nat.le_succ_of_le hi.opened_le
  refine (hn h₃ (hm.inside hopened) rfl hm.holds_eq).bind fun _ t₄ r₄ h₄ => ?_
  obtain ⟨raw, directive, hclose, hk, h₄⟩ := h₄
  exact (h₄.closeElse hclose hk hm ho).does.bind fun _ _ _ h₅ => h h₅ hi hw hl

theorem whileUnclosed (hr : g.read raw = .ok (.whileOpen condition))
    (hb : Follows host site limit expand g (some .whileOpen) pieces body none) :
    Follows host site limit expand g within (.token raw :: pieces)
      (.whileLoop condition body .ending) none := by
  intro inside frames t r live hs hi hw hl
  refine (hs.ask hr (.inr rfl) hl).does.bind fun (id, holds) t₁ r₁ ⟨frame, ho, h₁⟩ => ?_
  refine Does.bind (Does.repeatWhile (C := fun _ _ => False)
    (fun t r h => hb h (ho.inside hi.opened_le) rfl ho.holds_eq)
    (fun t r h => ?_) (Nat.le_refl limit) h₁) fun _ _ _ h₂ => False.elim h₂
  cases h.1

theorem whileLoop (hr : g.read raw = .ok (.whileOpen condition))
    (hb : Follows host site limit expand g (some .whileOpen) pieces body
      (some (.whileClose, more)))
    (h : Follows host site limit expand g within more rest stop) :
    Follows host site limit expand g within (.token raw :: pieces)
      (.whileLoop condition body rest) stop := by
  intro inside frames t r live hs hi hw hl
  refine (hs.ask hr (.inr rfl) hl).does.bind fun (id, holds) t₁ r₁ ⟨frame, ho, h₁⟩ => ?_
  refine Does.bind (Does.repeatWhile
    (fun t r h₂ => hb h₂ (ho.inside hi.opened_le) rfl ho.holds_eq)
    (fun t r h₂ => ?_) (Nat.le_refl limit) h₁) fun _ _ _ h₃ => h h₃ hi hw hl
  obtain ⟨raw, directive, hclose, hk, h₂⟩ := h₂
  exact h₂.closeWhile hclose hk ho

theorem eachUnclosed (hr : g.read raw = .ok (.eachOpen name sequence))
    (hb : Follows host site limit expand g (some .eachOpen) pieces body none) :
    Follows host site limit expand g within (.token raw :: pieces)
      (.eachLoop name sequence body .ending) none := by
  intro inside frames t r live hs hi hw hl
  refine (hs.gather hr hl).does.bind fun (id, items) t₁ r₁ h₁ => ?_
  cases items with
  | nil =>
    obtain ⟨frame, ho, h₁⟩ := h₁
    have hround := hb h₁ (ho.inside hi.opened_le) rfl ho.holds_eq
    exact .bind (.bind hround fun _ _ _ h₂ => nomatch h₂.1) fun _ _ _ h₃ => False.elim h₃
  | cons item items =>
    have h₁ : Taking name (Repeats g host site pieces id name sequence live frames)
      (fun _ _ => False) (item :: items) t₁ r₁ := h₁
    refine .bind (Does.takeUp (fun items t r h => ?_) h₁) fun _ _ _ h₂ => False.elim h₂
    obtain ⟨frame, ho, hitems, h⟩ := h
    exact (hb h (ho.inside hi.opened_le) rfl ho.holds_eq).bind fun _ _ _ h₂ => nomatch h₂.1

theorem eachLoop (hr : g.read raw = .ok (.eachOpen name sequence))
    (hb : Follows host site limit expand g (some .eachOpen) pieces body (some (.eachClose, more)))
    (h : Follows host site limit expand g within more rest stop) :
    Follows host site limit expand g within (.token raw :: pieces)
      (.eachLoop name sequence body rest) stop := by
  intro inside frames t r live hs hi hw hl
  refine (hs.gather hr hl).does.bind fun (id, items) t₁ r₁ h₁ => ?_
  cases items with
  | nil =>
    obtain ⟨frame, ho, h₁⟩ := h₁
    have hround := hb h₁ (ho.inside hi.opened_le) rfl ho.holds_eq
    refine .bind (.bind hround fun _ t₂ r₂ h₂ => ?_) fun _ _ _ h₃ => h h₃ hi hw hl
    obtain ⟨raw, directive, hclose, hk, h₂⟩ := h₂
    exact (h₂.closeEach_of_skipped hclose hk ho).does.bind
      fun _ _ r₃ h₃ => .goes (.refl host r₃) h₃
  | cons item items =>
    have h₁ : Taking name (Repeats g host site pieces id name sequence live frames)
      (fun t' r' => r'.Stands g host site more frames t') (item :: items) t₁ r₁ := h₁
    refine .bind (Does.takeUp (fun items t r h₂ => ?_) h₁) fun _ _ _ h₂ => h h₂ hi hw hl
    obtain ⟨frame, ho, hitems, h₂⟩ := h₂
    refine (hb h₂ (ho.inside hi.opened_le) rfl ho.holds_eq).bind fun _ t₃ r₃ h₃ => ?_
    obtain ⟨raw, directive, hclose, hk, h₃⟩ := h₃
    exact (h₃.closeEach hclose hk ho hitems).does.bind fun _ _ r₄ h₄ => .goes (.refl host r₄) h₄

/-- **In front of blocks, a rendering does what they mean.** -/
theorem of_spells {blocks : Blocks} (h : g.Spells within pieces blocks stop)
    (hc : host.callback = none) (hx : Expands g host site limit expand) :
    Follows host site limit expand g within pieces blocks stop := by
  induction h with
  | ending => exact ending
  | unclosed => exact fun hs _ _ _ => .fails 1 (run_of_told hs.unclosed 0)
  | faulty hr => exact fun hs _ _ _ => .fails 1 (run_of_told (hs.faulty hr) 0)
  | stray hr ho hn =>
    exact fun hs hi hw _ => .fails 1 (run_of_told (hs.stray hr hi ho (hw ▸ hn)) 0)
  | closed hr => exact fun hs _ _ _ => .goes (.refl host _) ⟨_, _, hr, rfl, hs⟩
  | text _ ih => exact text ih
  | value hr hv _ ih =>
    exact fun hs hi hw hl =>
      (hs.value hr hv hc hi hl hx).bind fun _ _ _ hs' => ih hs' hi hw hl
  | define hr _ ih =>
    exact fun hs hi hw hl => (hs.define hr hl).does.bind fun _ _ _ hs' => ih hs' hi hw hl
  | ifUnclosed hr _ ihy => exact ifUnclosed hr ihy
  | ifThen hr _ _ ihy ih => exact ifThen hr ihy ih
  | elseUnclosed hr _ _ ihy ihn => exact elseUnclosed hr ihy ihn
  | ifElse hr _ _ _ ihy ihn ih => exact ifElse hr ihy ihn ih
  | whileUnclosed hr _ ihb => exact whileUnclosed hr ihb
  | whileLoop hr _ _ ihb ih => exact whileLoop hr ihb ih
  | eachUnclosed hr _ ihb => exact eachUnclosed hr ihb
  | eachLoop hr _ _ ihb ih => exact eachLoop hr ihb ih

end Follows

/-- In front of a whole text. -/
theorem Stands.does_blocks {escapes : Bool} {text : List Char}
    (h : r.Stands g host site (g.pieces escapes text.length text) frames t)
    (hc : host.callback = none) (hx : Expands g host site limit expand)
    (hi : Inside site none frames) (hf : frames.suppressed = false) :
    r.Does host limit (fun _ t' r' => r'.Stands g host site [] frames t')
      ((g.blocks escapes text).eval host limit expand site.within none true t) := by
  have hspells := g.spells_part none (g.pieces escapes text.length text)
  rw [hspells.stop_eq_none] at hspells
  have hdoes := Follows.of_spells hspells hc hx h hi rfl (congrArg not hf).symm
  exact hdoes.later fun _ _ r' h' => ⟨r', .refl host r', h'.2⟩

/-! ### Values with tokens in them -/

omit [CharSource σ] [SteadySource σ] in
/-- A passage on a value. -/
theorem Stands.enter (h : r.Stands g host site pieces frames t) (value : List Char) (id : Nat) :
    (r.enter value id).Stands g host
      ⟨site.level + 1, frames.length, some id, r.passage :: site.outer, value⟩
      (g.pieces true value.length value) frames t where
  level := congrArg (· + 1) h.level
  opened := congrArg List.length h.frames
  within := rfl
  outer := congrArg _ h.outer
  whole := Window.whole_fixed value
  room := h.room
  pieces := by rw [decide_eq_true (Nat.succ_pos _)]; rfl
  frames := h.frames
  told := h.told
  grammar := h.grammar

omit [CharSource σ] [SteadySource σ] in
/-- The passage that a value stands in goes on where it was. -/
theorem Stands.resume {site' : Site σ} {t' : Told} {r' : Rendering κ σ}
    (h : r.Stands g host site pieces frames t) (h' : r'.Stands g host site' [] frames t') :
    ({ r' with passage := r.passage, outer := site.outer } : Rendering κ σ).Stands g host site pieces
      frames t' where
  level := h.level
  opened := h.opened
  within := h.within
  outer := rfl
  whole := h.whole
  room := h'.room
  pieces := h.pieces
  frames := h'.frames
  told := h'.told
  grammar := h'.grammar

/-- A value is rendered as what it means, as deep as values may be nested. -/
theorem expands_expansion (hc : host.callback = none) {depth : Nat}
    (hd : site.level + depth = host.options.maxDepth) :
    Expands g host site limit (host.expansion limit g depth) := by
  intro pieces frames t r id value h hf htop
  induction depth generalizing site pieces frames t r id value with
  | zero =>
    rw [if_pos (by rw [← hd]; exact Nat.lt_succ_self _)]
    rfl
  | succ depth ih =>
    have hd : site.level + 1 + depth = host.options.maxDepth := by rw [← hd]; omega
    rw [if_neg (by rw [← hd]; exact Nat.not_lt.2 (Nat.le_add_right _ _))]
    refine ((h.enter value id).does_blocks hc (ih hd) ?_ hf).later fun _ t' r' h' => ?_
    · exact .passage rfl fun top ht => Nat.lt_succ_of_le (htop top ht)
    · obtain ⟨r'', h'', hstep⟩ := h'.leaves rfl
      exact ⟨_, .of_running hstep, h.resume h''⟩

end Rendering

/-! ### Templates -/

/-- A rendering that begins stands in front of all pieces of its template. -/
theorem Rendering.stands_start {κ σ : Type} (host : Host κ) (template : List Char) (vars : Variables)
    (memory : κ) (pool : Pool) {sink : Sink} (hroom : sink.room = none) :
    (start (.fixed template : Window σ) 0 { vars, memory } pool sink).Stands (host.grammar vars) host
      ⟨0, 0, none, [], template⟩ ((host.grammar vars).pieces false template.length template) []
      ⟨sink.text, vars, 0⟩ :=
  ⟨rfl, rfl, rfl, rfl, Window.whole_fixed template, hroom, rfl, rfl, rfl, rfl⟩

namespace Host
variable {κ σ : Type} [CharSource σ] [SteadySource σ] {host : Host κ}

/-- A rendering that begins does what its template means. -/
theorem does_start (hc : host.callback = none) (template : List Char) (vars : Variables)
    (memory : κ) (pool : Pool) {sink : Sink} (hroom : sink.room = none) (limit : Nat) :
    (Rendering.start (.fixed template : Window σ) 0 { vars, memory } pool sink).Does host limit
      (fun _ t r => r.Stands (host.grammar vars) host ⟨0, 0, none, [], template⟩ [] [] t)
      (host.meaning limit template ⟨sink.text, vars, 0⟩) := by
  have hstands := Rendering.stands_start host template vars memory pool hroom (σ := σ)
  exact hstands.does_blocks hc (Rendering.expands_expansion hc (Nat.zero_add _)) (.passage rfl nofun)
    rfl

/-- A rendering comes to what the template means within some number of rounds, or goes on for as many
steps. -/
theorem run_start (hc : host.callback = none) (template : List Char) (vars : Variables)
    (memory : κ) (pool : Pool) {sink : Sink} (hroom : sink.room = none) (limit : Nat) :
    let r : Rendering κ σ := .start (.fixed template) 0 { vars, memory } pool sink
    match host.meaning limit template ⟨sink.text, vars, 0⟩ with
    | some out => ∃ steps, (r.run host steps).told = some out
    | none => ∃ steps, limit ≤ steps ∧ (r.run host steps).told = none := by
  intro r
  have hdoes := does_start hc template vars memory pool hroom limit (σ := σ)
  generalize host.meaning limit template ⟨sink.text, vars, 0⟩ = out at hdoes
  cases hdoes with
  | @goes _ t r' h h' =>
    obtain ⟨count, hcount⟩ := h
    obtain ⟨r'', h'', hstep⟩ := h'.leaves rfl
    refine ⟨count + 0 + 1, (hcount 0).trans (Rendering.run_of_told ?_ 0)⟩
    rw [hstep, ← h''.told]
    rfl
  | fails steps h => exact ⟨steps, h⟩
  | lasts steps hs h => exact ⟨steps, hs, h⟩

/-- A rendering that comes to an end comes to what the template means, wherever there are more rounds
than it takes steps. -/
theorem meaning_of_told (hc : host.callback = none) {template : List Char} {vars : Variables}
    {memory : κ} {pool : Pool} {sink : Sink} (hroom : sink.room = none) {steps limit : Nat}
    {out : Except RenderError Unit × Told}
    (h : ((Rendering.start (.fixed template : Window σ) 0 { vars, memory } pool sink).run host
      steps).told = some out) (hl : steps < limit) :
    host.meaning limit template ⟨sink.text, vars, 0⟩ = some out := by
  have hstart := host.run_start hc template vars memory pool hroom limit (σ := σ)
  cases hm : host.meaning limit template ⟨sink.text, vars, 0⟩ with
  | some out' =>
    rw [hm] at hstart
    obtain ⟨steps', h'⟩ := hstart
    have hlong := Rendering.run_of_le h (Nat.le_max_left steps steps')
    rw [Rendering.run_of_le h' (Nat.le_max_right steps steps')] at hlong
    exact hlong
  | none =>
    rw [hm] at hstart
    obtain ⟨steps', hle, h'⟩ := hstart
    rw [Rendering.run_of_le h (Nat.le_of_lt (Nat.lt_of_lt_of_le hl hle))] at h'
    cases h'

/-- A rendering comes to an end as the template means, if it means anything within some number of
rounds. -/
theorem run_iff_meaning (hc : host.callback = none) (template : List Char) (vars : Variables)
    (memory : κ) (pool : Pool) {sink : Sink} (hroom : sink.room = none)
    (out : Except RenderError Unit × Told) :
    (∃ steps, ((Rendering.start (.fixed template : Window σ) 0 { vars, memory } pool sink).run host
      steps).told = some out) ↔
      ∃ limit, host.meaning limit template ⟨sink.text, vars, 0⟩ = some out := by
  constructor
  · rintro ⟨steps, h⟩
    exact ⟨steps + 1, meaning_of_told hc hroom h (Nat.lt_succ_self steps)⟩
  · rintro ⟨limit, h⟩
    have hstart := host.run_start hc template vars memory pool hroom limit (σ := σ)
    rw [h] at hstart
    exact hstart

/-- Behind a template tokens are read as they are in it. -/
theorem grammar_of_meaning (hc : host.callback = none) {template : List Char} {text : String}
    {vars : Variables} {limit : Nat} {t : Told}
    (h : host.meaning limit template ⟨text, vars, 0⟩ = some (.ok (), t)) (memory : κ) :
    host.grammar t.vars = host.grammar vars := by
  have hroom : ({ text } : Sink).room = none := rfl
  have hdoes := does_start hc template vars memory ⟨[], 0, 0⟩ hroom limit (σ := TextSource)
  rw [h] at hdoes
  cases hdoes with
  | goes _ hstands => exact hstands.grammar

end Host

namespace Rendered
variable {κ σ : Type}

/-- What is left behind is told at the end. -/
theorem told_of_ofProgress? {p : Progress κ σ} {rendered : Rendered κ}
    (h : ofProgress? p = some rendered) :
    ∃ tokens, p.told = some (rendered.result, ⟨rendered.sink.text, rendered.vars, tokens⟩) := by
  cases p with
  | running r => cases h
  | finished r =>
    cases h
    exact ⟨_, rfl⟩
  | failed e r =>
    cases h
    exact ⟨_, rfl⟩

theorem ofProgress?_of_told {p : Progress κ σ} {result : Except RenderError Unit} {t : Told}
    (h : p.told = some (result, t)) :
    ∃ rendered, ofProgress? p = some rendered ∧ rendered.result = result ∧
      rendered.sink.text = t.text ∧ rendered.vars = t.vars := by
  cases p with
  | running r => cases h
  | finished r =>
    cases h
    exact ⟨_, rfl, rfl, rfl, rfl⟩
  | failed e r =>
    cases h
    exact ⟨_, rfl, rfl, rfl, rfl⟩

theorem exists_finished {p : Progress κ σ} {rendered : Rendered κ}
    (h : ofProgress? p = some rendered) (hr : rendered.result = .ok ()) : ∃ r, p = .finished r := by
  cases p with
  | running r => cases h
  | finished r => exact ⟨r, rfl⟩
  | failed e r =>
    cases h
    cases hr

end Rendered

/-- A text is rendered as the rendering that begins with it comes to an end. -/
theorem Renderer.renderText_iff_told {κ : Type} (renderer : Renderer κ) (template : String)
    (vars vars' : Variables) (memory : κ) (pool : Pool) (result : Except RenderError Unit)
    (text : String) :
    (∃ steps rendered, renderer.renderText steps template vars memory pool = some rendered ∧
      rendered.result = result ∧ rendered.sink.text = text ∧ rendered.vars = vars') ↔
      ∃ steps tokens, ((Rendering.start (.fixed template.toList : Window TextSource) 0
        { vars, memory } pool {}).run renderer.host steps).told =
          some (result, ⟨text, vars', tokens⟩) := by
  constructor
  · rintro ⟨steps, rendered, h, rfl, rfl, rfl⟩
    obtain ⟨tokens, htold⟩ := Rendered.told_of_ofProgress? h
    exact ⟨steps, tokens, htold⟩
  · rintro ⟨steps, tokens, htold⟩
    obtain ⟨rendered, hrendered, hresult, htext, hvars⟩ := Rendered.ofProgress?_of_told htold
    exact ⟨steps, rendered, hrendered, hresult, htext, hvars⟩

/-- **A template is rendered as what it means**: where there is no callback, rendering it comes to an
end exactly if the template means something within some number of rounds of its loops, and then with
the result, the text and the variables that it means. -/
theorem Renderer.renderText_iff_meaning {κ : Type} (renderer : Renderer κ)
    (hc : renderer.host.callback = none) (template : String) (vars vars' : Variables) (memory : κ)
    (pool : Pool) (result : Except RenderError Unit) (text : String) :
    (∃ steps rendered, renderer.renderText steps template vars memory pool = some rendered ∧
      rendered.result = result ∧ rendered.sink.text = text ∧ rendered.vars = vars') ↔
      ∃ limit tokens, renderer.host.meaning limit template.toList { text := "", vars } =
        some (result, ⟨text, vars', tokens⟩) := by
  have hroom : ({} : Sink).room = none := rfl
  have hrun := fun tokens => renderer.host.run_iff_meaning hc template.toList vars memory pool hroom
    (result, ⟨text, vars', tokens⟩) (σ := TextSource)
  rw [renderer.renderText_iff_told]
  constructor
  · rintro ⟨steps, tokens, htold⟩
    obtain ⟨limit, hmeaning⟩ := (hrun tokens).1 ⟨steps, htold⟩
    exact ⟨limit, tokens, hmeaning⟩
  · rintro ⟨limit, tokens, h⟩
    obtain ⟨steps, htold⟩ := (hrun tokens).2 ⟨limit, h⟩
    exact ⟨steps, tokens, htold⟩

/-- A loop over values, one of which is a name whose value is a block. -/
theorem Renderer.meaning_of_block_in_value :
    let renderer : Renderer Unit := ⟨{}, rfl⟩
    let vars : Variables := .ofList
      [("xs", .list [.str "a", .str "{{n}}"]), ("n", .str "{{if xs}}b{{else}}c{{/if}}")]
    let template := "{{each x: v => v.xs}}{{x}}, {{/each}}"
    renderer.host.callback = none ∧
      ∃ limit tokens vars', renderer.host.meaning limit template.toList { text := "", vars } =
        some (.ok (), ⟨"a, b, ", vars', tokens⟩) := by
  intro renderer vars template
  have hrun : (renderer.renderText 20 template vars () ⟨[], 0, 0⟩).map
      (fun rendered => (rendered.result, rendered.sink.text)) = some (.ok (), "a, b, ") := by
    decide +kernel
  obtain ⟨rendered, hrendered, hout⟩ := Option.map_eq_some_iff.1 hrun
  obtain ⟨hresult, htext⟩ := Prod.mk.inj hout
  obtain ⟨limit, tokens, hmeaning⟩ := (renderer.renderText_iff_meaning rfl template vars
    rendered.vars () ⟨[], 0, 0⟩ (.ok ()) "a, b, ").1
      ⟨20, rendered, hrendered, hresult, htext, rfl⟩
  exact ⟨rfl, limit, tokens, rendered.vars, hmeaning⟩

end Stencil
