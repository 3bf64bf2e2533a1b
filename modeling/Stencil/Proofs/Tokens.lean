import Stencil.Proofs.Telling

/-! What each token does where a rendering stands in front of it.

A rendering in front of a token does in its next step what the effect of the token comes to
(`Rendering.DoesNext`), if the blocks that are open are those that the token stands in (`Inside`). -/
namespace Stencil

/-! ### Tokens out of place, and tokens that close a block -/

namespace Host
variable {κ : Type} {host : Host κ} {token : Token} {level resume : Nat} {s : RenderState κ}
  {top : Frame} {below : Frames}

/-- A token that ends nothing is out of place, and changes nothing. -/
theorem interpret_of_stray {opener : Token.Kind} (ho : token.kind.opener? = some opener)
    (h : ∀ top ∈ s.frames.head?, top.level = level → token.kind.ends top.kind = false) :
    host.interpret token level resume s =
      (.error (.token token.id (.unmatched token.kind opener)), s) := by
  -- The innermost block is not one that a token of this kind ends.
  have hnot : ∀ {top : Frame} {below : Frames}, s.frames = top :: below → ∀ kind,
      token.kind.ends kind = true → ¬(top.kind = kind ∧ top.level = level) := by
    intro top below hf kind he hc
    have := h top (by rw [hf]; rfl) hc.2
    rw [hc.1, he] at this
    cases this
  have htop : ∀ kind, token.kind.ends kind = true → s.frames.topIs kind level = false := by
    intro kind he
    cases hs : s.frames.topIs kind level with
    | false => rfl
    | true =>
      obtain ⟨top, below, hf, hc⟩ := topIs_iff.1 hs
      exact absurd hc (hnot hf kind he)
  obtain ⟨id, directive, length⟩ := token
  cases directive with
  | elseMark =>
    cases ho
    show markElse _ level s = _
    unfold markElse
    cases hf : s.frames with
    | nil => rfl
    | cons top below =>
      dsimp only
      rw [if_neg (hnot hf .ifOpen rfl)]
      rfl
  | ifClose =>
    cases ho
    show closeIf _ level s = _
    unfold closeIf
    rw [htop .elseMark rfl]
    dsimp only
    rw [if_neg Bool.false_ne_true, htop .ifOpen rfl]
    rfl
  | whileClose =>
    cases ho
    show host.closeWhile _ level s = _
    unfold closeWhile
    cases hf : s.frames with
    | nil => rfl
    | cons top below =>
      dsimp only
      split
      · next condition hd =>
        rw [if_neg fun hl => hnot hf .whileOpen rfl ⟨congrArg Token.Directive.kind hd, hl⟩]
        rfl
      · rfl
  | eachClose =>
    cases ho
    show closeEach _ level s = _
    unfold closeEach
    cases hf : s.frames with
    | nil => rfl
    | cons top below =>
      dsimp only
      split
      · next name text hd =>
        rw [if_neg fun hl => hnot hf .eachOpen rfl ⟨congrArg Token.Directive.kind hd, hl⟩]
        rfl
      · rfl
  | _ => cases ho

theorem interpret_condition {condition : Token.Condition}
    (hd : token.directive = .ifOpen condition ∨ token.directive = .whileOpen condition) :
    host.interpret token level resume s =
      if s.frames.suppressed then push (.skipped token level) s
      else host.openConditional token condition level
        (if token.kind.isLoop then some resume else none) s := by
  obtain ⟨id, directive, length⟩ := token
  rcases hd with rfl | rfl
  · rfl
  · rfl

theorem interpret_eachOpen {id length : Nat} {name sequence : String} :
    host.interpret ⟨id, .eachOpen name sequence, length⟩ level resume s =
      if s.frames.suppressed then push (.skipped ⟨id, .eachOpen name sequence, length⟩ level) s
      else host.openEach ⟨id, .eachOpen name sequence, length⟩ name sequence level resume s := rfl

theorem interpret_elseMark {id length : Nat} (hf : s.frames = top :: below)
    (hk : top.kind = .ifOpen) (hl : top.level = level) :
    host.interpret ⟨id, .elseMark, length⟩ level resume s =
      (.ok .ignore, { s with
        frames :=
          { token := ⟨id, .elseMark, length⟩
            truthy := top.live && !top.truthy
            live := top.live
            level } :: s.frames }) := by
  show markElse _ level s = _
  unfold markElse
  rw [hf]
  dsimp only
  rw [if_pos ⟨hk, hl⟩, ← hf]
  rfl

theorem interpret_ifClose {id length : Nat} (hf : s.frames = top :: below)
    (hk : top.kind = .ifOpen) (hl : top.level = level) :
    host.interpret ⟨id, .ifClose, length⟩ level resume s =
      (.ok .ignore, { s with frames := below }) := by
  have helse : s.frames.topIs .elseMark level = false := by
    cases hs : s.frames.topIs .elseMark level with
    | false => rfl
    | true =>
      obtain ⟨top', below', hf', hk', _⟩ := topIs_iff.1 hs
      rw [hf] at hf'
      cases hf'
      rw [hk] at hk'
      cases hk'
  show closeIf _ level s = _
  unfold closeIf
  rw [helse]
  dsimp only
  rw [if_neg Bool.false_ne_true, topIs_iff.2 ⟨top, below, hf, hk, hl⟩, hf]
  rfl

theorem interpret_ifClose_of_mark {mark : Frame} {id length : Nat}
    (hf : s.frames = mark :: top :: below) (hm : mark.kind = .elseMark) (hml : mark.level = level)
    (hk : top.kind = .ifOpen) (hl : top.level = level) :
    host.interpret ⟨id, .ifClose, length⟩ level resume s =
      (.ok .ignore, { s with frames := below }) := by
  show closeIf _ level s = _
  unfold closeIf
  rw [topIs_iff.2 ⟨mark, top :: below, hf, hm, hml⟩, hf]
  dsimp only
  rw [if_pos rfl, List.tail_cons, topIs_iff.2 ⟨top, below, rfl, hk, hl⟩]
  rfl

theorem interpret_whileClose {id length : Nat} {condition : Token.Condition}
    (hf : s.frames = top :: below) (hd : top.token.directive = .whileOpen condition)
    (hl : top.level = level) :
    host.interpret ⟨id, .whileClose, length⟩ level resume s =
      match if top.truthy then host.decide top.token.id s.vars condition else .ok false with
      | .ok true => (.ok .again, s)
      | .ok false => (.ok .ignore, { s with frames := below })
      | .error e => (.error e, s) := by
  show host.closeWhile _ level s = _
  unfold closeWhile
  rw [hf]
  dsimp only
  rw [hd]
  exact if_pos hl

theorem interpret_eachClose {id length : Nat} {name sequence : String}
    (hf : s.frames = top :: below) (hd : top.token.directive = .eachOpen name sequence)
    (hl : top.level = level) :
    host.interpret ⟨id, .eachClose, length⟩ level resume s =
      if top.truthy then
        match top.next? with
        | some (item, frame) =>
          (.ok .again, { s with frames := frame :: below, vars := s.vars.set name (.str item) })
        | none => (.ok .ignore, { s with frames := below, vars := s.vars.remove name })
      else (.ok .ignore, { s with frames := below }) := by
  show closeEach _ level s = _
  unfold closeEach
  rw [hf]
  dsimp only
  rw [hd]
  exact if_pos hl

theorem interpret_value {id length : Nat} {directive : Token.Directive}
    (hw : directive.kind.isWritten = true) (hc : host.callback = none) :
    host.interpret ⟨id, directive, length⟩ level resume s =
      (.ok (if s.frames.suppressed then .ignore else host.resolution s.vars directive), s) := by
  have hw : (⟨id, directive, length⟩ : Token).kind.isWritten = true := hw
  rw [interpret_of_isWritten hw]
  unfold write
  rw [hc]
  dsimp only
  cases s.frames.suppressed with
  | true => rfl
  | false => rfl

theorem interpret_define {id length : Nat} {name : String} {meaning : Token.Meaning}
    (hs : s.frames.suppressed = false) :
    host.interpret ⟨id, .define name meaning, length⟩ level resume s =
      match host.defined id s.vars meaning with
      | .ok value => (.ok .ignore, { s with vars := s.vars.set name value })
      | .error e => (.error e, s) := by
  show (if s.frames.suppressed then _ else _ : Outcome κ Resolution) = _
  rw [if_neg (ne_true_of_eq_false hs)]
  cases meaning with
  | text text => rfl
  | expression text => rfl

end Host

namespace Rendering
variable {κ σ : Type}

/-! ### Where the blocks are open -/

/-- So many characters into the text of a site these pieces are left. -/
def Site.At (g : Token.Grammar) (site : Site σ) (pieces : List Piece) (offset : Nat) : Prop :=
  offset ≤ site.text.length ∧
    g.pieces (0 < site.level) site.text.length (site.text.drop offset) = pieces

/-- The innermost open block began with a token of that kind and number in the passage that is read;
or no block of the passage is open. -/
inductive Inside (site : Site σ) : Option (Token.Kind × Nat) → Frames → Prop
  | passage {frames : Frames} (ho : frames.length = site.opened)
      (hl : ∀ top ∈ frames.head?, top.level < site.level) : Inside site none frames
  | block {top : Frame} {below : Frames} (hl : top.level = site.level)
      (ho : site.opened ≤ below.length) :
      Inside site (some (top.kind, top.token.id)) (top :: below)

namespace Inside
variable {site : Site σ} {inside : Option (Token.Kind × Nat)} {frames : Frames}

theorem opened_le (h : Inside site inside frames) : site.opened ≤ frames.length := by
  cases h with
  | passage ho hl => exact Nat.le_of_eq ho.symm
  | block hl ho => exact Nat.le_succ_of_le ho

theorem level_le (h : Inside site inside frames) : ∀ top ∈ frames.head?, top.level ≤ site.level := by
  cases h with
  | passage ho hl => exact fun top ht => Nat.le_of_lt (hl top ht)
  | block hl ho =>
    intro top ht
    cases ht
    exact Nat.le_of_eq hl

/-- A token that does not end the part ends no open block. -/
theorem ends_eq_false (h : Inside site inside frames) {kind : Token.Kind}
    (hw : (inside.map (·.1)).any kind.ends = false) :
    ∀ top ∈ frames.head?, top.level = site.level → kind.ends top.kind = false := by
  cases h with
  | passage ho hl => exact fun top ht he => absurd he (Nat.ne_of_lt (hl top ht))
  | block hl ho =>
    intro top ht _
    cases ht
    exact hw

end Inside

/-- An open block of the passage that a token began in front of these pieces; if it is a loop that is
rendered it can go back to them. -/
structure Opened (g : Token.Grammar) (site : Site σ) (pieces : List Piece) (id : Nat)
    (directive : Token.Directive) (holds live : Bool) (frame : Frame) : Prop where
  resume : holds = true → directive.kind.isLoop = true →
    ∃ offset, frame.resume = some offset ∧ site.At g pieces offset
  id : frame.token.id = id
  directive : frame.token.directive = directive
  truthy : frame.truthy = holds
  live : frame.live = live
  level : frame.level = site.level

namespace Opened
variable {g : Token.Grammar} {site : Site σ} {pieces : List Piece} {id : Nat}
  {directive : Token.Directive} {holds live : Bool} {frame : Frame} {below : Frames}

theorem inside (h : Opened g site pieces id directive holds live frame)
    (ho : site.opened ≤ below.length) : Inside site (some (directive.kind, id)) (frame :: below) := by
  rw [← h.directive, ← h.id]
  exact .block h.level ho

/-- What stands in the block is rendered if it holds. -/
theorem holds_eq (h : Opened g site pieces id directive holds live frame) :
    holds = !Frames.suppressed (frame :: below) := by
  rw [← h.truthy]
  exact (Bool.not_not _).symm

end Opened

/-- An `each` that is rendered stands open in front of its body, and these items are still to come. -/
def Repeats (g : Token.Grammar) (host : Host κ) (site : Site σ) (pieces : List Piece) (id : Nat)
    (name sequence : String) (live : Bool) (below : Frames) (items : List String) (t : Told)
    (r : Rendering κ σ) : Prop :=
  ∃ frame, Opened g site pieces id (.eachOpen name sequence) true live frame ∧
    frame.items = some items ∧ r.Stands g host site pieces (frame :: below) t

/-! ### One step -/

namespace Stands
variable [CharSource σ] {host : Host κ} {g : Token.Grammar} {site : Site σ} {pieces rest : List Piece}
  {frames : Frames} {t : Told} {r : Rendering κ σ} {raw : List Char} {directive : Token.Directive}

omit [CharSource σ]

theorem at_cursor (h : r.Stands g host site pieces frames t) :
    site.At g pieces r.passage.window.cursor :=
  ⟨h.whole.cursor_le, h.pieces⟩

/-- What is carried along after the token was counted, up to what tells nothing. -/
theorem counted_eq (h : r.Stands g host site pieces frames t) :
    ∃ position memory, r.counted = ⟨frames, position, t.tokens + 1, t.vars, memory⟩ := by
  obtain ⟨passage, outer, ⟨_, position, _, _, memory⟩, pool, sink⟩ := r
  obtain rfl := h.frames
  obtain rfl := h.told
  exact ⟨_, memory, rfl⟩

theorem classify (h : r.Stands g host site pieces frames t) (hr : g.read raw = .ok directive) :
    (host.grammar r.counted.vars).classify r.counted.tokens raw =
      .ok ⟨t.tokens + 1, directive, raw.length⟩ := by
  obtain ⟨position, memory, hc⟩ := h.counted_eq
  rw [hc]
  show (host.grammar t.vars).classify (t.tokens + 1) raw = _
  rw [h.grammar, Token.Grammar.classify, hr]

theorem resolves (h : r.Stands g host site pieces frames t) (hr : g.read raw = .ok directive)
    {resolution : Resolution} {state : RenderState κ}
    (hi : host.interpret ⟨t.tokens + 1, directive, raw.length⟩ site.level r.passage.window.cursor
      r.counted = (.ok resolution, state)) :
    r.Resolves host raw ⟨t.tokens + 1, directive, raw.length⟩ resolution state :=
  ⟨h.classify hr, by rw [h.level]; exact hi⟩

/-- Whatever was carried on and followed, the rendering stands where it stood. -/
theorem followed (h : r.Stands g host site pieces frames t) {state : RenderState κ}
    (hg : host.grammar state.vars = g) (kind : Token.Kind) (action : Action) :
    (({ r with state } : Rendering κ σ).followLoop kind action).Stands g host site pieces
      state.frames ⟨t.text, state.vars, state.tokens⟩ := by
  rw [followLoop_eq]
  refine ⟨h.level, h.opened, h.within, h.outer, follow_whole h.whole .., h.room, ?_, rfl, ?_, hg⟩
  · show g.pieces _ _ (site.text.drop (follow r.passage.window kind action r.pool).1.cursor) = pieces
    rw [follow_cursor]
    exact h.pieces
  · obtain rfl := h.told
    rfl

/-- A rendering that can go back to where the innermost block begins stands there then. -/
theorem replay {top : Frame} {below : Frames} {offset : Nat}
    (h : r.Stands g host site rest (top :: below) t) (ht : top.resume = some offset)
    (ha : site.At g pieces offset) (id : Nat) :
    ∃ r', r.replay id = .running r' ∧ r'.Stands g host site pieces (top :: below) t := by
  obtain ⟨hle, hp⟩ := ha
  have hseek : r.passage.window.seek offset = .ok { r.passage.window with cursor := offset } := by
    refine seek_of_range ?_
    rw [h.whole.residentStart, h.whole.residentStop]
    exact ⟨Nat.zero_le _, hle⟩
  refine ⟨r.withWindow { r.passage.window with cursor := offset }, ?_, ?_⟩
  · unfold Rendering.replay
    rw [h.frames]
    dsimp only [List.head?_cons, Option.bind_some]
    rw [ht]
    dsimp only
    rw [hseek]
  · exact ⟨h.level, h.opened, h.within, h.outer, ⟨h.whole.supply, h.whole.segments, hle⟩, h.room, hp,
      h.frames, h.told, h.grammar⟩

theorem grammar_of_interpret (h : r.Stands g host site pieces frames t) {token : Token}
    {level resume position : Nat} {memory : κ} {result : Except RenderError Resolution}
    {state : RenderState κ}
    (hi : host.interpret token level resume ⟨frames, position, t.tokens + 1, t.vars, memory⟩ =
      (result, state)) : host.grammar state.vars = g := by
  have := Host.grammar_interpret host token level resume
    ⟨frames, position, t.tokens + 1, t.vars, memory⟩
  rw [hi] at this
  exact this.trans h.grammar

variable [CharSource σ] [SteadySource σ] {vars : Variables}

/-- A token that is resolved is carried out behind it, with what is open and defined then. -/
theorem resolved {P : Frames → Prop} {resolution : Resolution}
    (h : r.Stands g host site (.token raw :: rest) frames t) (hr : g.read raw = .ok directive)
    (hi : ∀ position memory resume, site.At g rest resume → ∃ frames', P frames' ∧
      host.interpret ⟨t.tokens + 1, directive, raw.length⟩ site.level resume
        ⟨frames, position, t.tokens + 1, t.vars, memory⟩ =
          (.ok resolution, ⟨frames', position, t.tokens + 1, vars, memory⟩)) :
    ∃ frames' r', P frames' ∧ r.step host = carryOut host r' (t.tokens + 1) resolution ∧
      r'.Stands g host site rest frames' ⟨t.text, vars, t.tokens + 1⟩ := by
  obtain ⟨r₁, h₁, hstep⟩ := h.token
  obtain ⟨position, memory, hc⟩ := h₁.counted_eq
  obtain ⟨frames', hp, hi⟩ := hi position memory _ h₁.at_cursor
  have hg := h₁.grammar_of_interpret hi
  have hresolves : r₁.Resolves host raw ⟨t.tokens + 1, directive, raw.length⟩ resolution
      ⟨frames', position, t.tokens + 1, vars, memory⟩ := h₁.resolves hr (by rw [hc]; exact hi)
  exact ⟨frames', _, hp, hstep.trans (act_of_resolves hresolves), h₁.followed hg _ _⟩

/-- A token that is ignored, with some blocks open then. -/
theorem ignored {P : Frames → Prop} (h : r.Stands g host site (.token raw :: rest) frames t)
    (hr : g.read raw = .ok directive)
    (hi : ∀ position memory resume, site.At g rest resume → ∃ frames', P frames' ∧
      host.interpret ⟨t.tokens + 1, directive, raw.length⟩ site.level resume
        ⟨frames, position, t.tokens + 1, t.vars, memory⟩ =
          (.ok .ignore, ⟨frames', position, t.tokens + 1, vars, memory⟩)) :
    ∃ frames' r', P frames' ∧ r.step host = .running r' ∧
      r'.Stands g host site rest frames' ⟨t.text, vars, t.tokens + 1⟩ :=
  h.resolved hr hi

/-- A token that is ignored, with these blocks open then. -/
theorem ignores {frames' : Frames} (h : r.Stands g host site (.token raw :: rest) frames t)
    (hr : g.read raw = .ok directive)
    (hi : ∀ position memory resume,
      host.interpret ⟨t.tokens + 1, directive, raw.length⟩ site.level resume
        ⟨frames, position, t.tokens + 1, t.vars, memory⟩ =
          (.ok .ignore, ⟨frames', position, t.tokens + 1, vars, memory⟩)) :
    ∃ r', r.step host = .running r' ∧
      r'.Stands g host site rest frames' ⟨t.text, vars, t.tokens + 1⟩ := by
  obtain ⟨_, r', rfl, hstep, hst⟩ := h.ignored (P := (· = frames')) hr
    fun position memory resume _ => ⟨frames', rfl, hi position memory resume⟩
  exact ⟨r', hstep, hst⟩

/-- A token that opens a block. -/
theorem opens (h : r.Stands g host site (.token raw :: rest) frames t) (f : Nat → Frame)
    (vars : Variables) (hr : g.read raw = .ok directive)
    (hi : ∀ position memory resume,
      host.interpret ⟨t.tokens + 1, directive, raw.length⟩ site.level resume
        ⟨frames, position, t.tokens + 1, t.vars, memory⟩ =
          Host.push (f resume) ⟨frames, position, t.tokens + 1, vars, memory⟩) :
    ∃ resume r', site.At g rest resume ∧ r.step host = .running r' ∧
      r'.Stands g host site rest (f resume :: frames) ⟨t.text, vars, t.tokens + 1⟩ := by
  obtain ⟨_, r', ⟨resume, hat, rfl⟩, hstep, hst⟩ := h.ignored
    (P := fun frames' => ∃ resume, site.At g rest resume ∧ frames' = f resume :: frames) hr
    fun position memory resume hat => ⟨_, ⟨resume, hat, rfl⟩, hi position memory resume⟩
  exact ⟨resume, r', hat, hstep, hst⟩

/-- A token at which the innermost block starts over. -/
theorem again {top : Frame} {below : Frames} {offset : Nat}
    (h : r.Stands g host site (.token raw :: rest) frames t) (hr : g.read raw = .ok directive)
    (ht : top.resume = some offset) (ha : site.At g pieces offset)
    (hi : ∀ position memory resume,
      host.interpret ⟨t.tokens + 1, directive, raw.length⟩ site.level resume
        ⟨frames, position, t.tokens + 1, t.vars, memory⟩ =
          (.ok .again, ⟨top :: below, position, t.tokens + 1, vars, memory⟩)) :
    ∃ r', r.step host = .running r' ∧
      r'.Stands g host site pieces (top :: below) ⟨t.text, vars, t.tokens + 1⟩ := by
  obtain ⟨_, r₁, rfl, hstep, h₁⟩ := h.resolved (P := (· = top :: below)) hr
    fun position memory resume _ => ⟨top :: below, rfl, hi position memory resume⟩
  obtain ⟨r', hreplay, h'⟩ := h₁.replay ht ha (t.tokens + 1)
  exact ⟨r', hstep.trans hreplay, h'⟩

/-- A token that fails. -/
theorem erred {e : RenderError} (h : r.Stands g host site (.token raw :: rest) frames t)
    (hr : g.read raw = .ok directive)
    (hi : ∀ position memory resume, ∃ frames',
      host.interpret ⟨t.tokens + 1, directive, raw.length⟩ site.level resume
        ⟨frames, position, t.tokens + 1, t.vars, memory⟩ =
          (.error e, ⟨frames', position, t.tokens + 1, t.vars, memory⟩)) :
    (r.step host).told = some (.error e, { t with tokens := t.tokens + 1 }) := by
  obtain ⟨r₁, h₁, hstep⟩ := h.token
  obtain ⟨position, memory, hc⟩ := h₁.counted_eq
  obtain ⟨frames', hi⟩ := hi position memory r₁.passage.window.cursor
  have hact := act_of_interpret_error (h₁.classify hr) (by rw [hc, h₁.level]; exact hi)
  rw [hstep, hact]
  obtain rfl := h₁.told
  rfl

/-- What is no token fails. -/
theorem faulty {fault : TokenFault} (h : r.Stands g host site (.token raw :: rest) frames t)
    (hr : g.read raw = .error fault) :
    (r.step host).told =
      some (.error (.token (t.tokens + 1) fault), { t with tokens := t.tokens + 1 }) := by
  obtain ⟨r₁, h₁, hstep⟩ := h.token
  obtain ⟨position, memory, hc⟩ := h₁.counted_eq
  have hclassify : (host.grammar r₁.counted.vars).classify r₁.counted.tokens raw =
      .error (.token (t.tokens + 1) fault) := by
    rw [hc]
    show (host.grammar t.vars).classify (t.tokens + 1) raw = _
    rw [h.grammar, Token.Grammar.classify, hr]
  rw [hstep, act_of_classify_error hclassify]
  obtain rfl := h₁.told
  rfl

/-! ### Tokens that open a block -/

/-- An `if` or a `while` asks for its condition and opens its block. -/
theorem ask {condition : Token.Condition} {live : Bool}
    (h : r.Stands g host site (.token raw :: rest) frames t) (hr : g.read raw = .ok directive)
    (hd : directive = .ifOpen condition ∨ directive = .whileOpen condition)
    (hl : live = !frames.suppressed) :
    r.DoesNext host (fun (opened : Nat × Bool) t' r' =>
      ∃ frame, Opened g site rest opened.1 directive opened.2 live frame ∧
        r'.Stands g host site rest (frame :: frames) t') (host.ask live condition t) := by
  let token : Token := ⟨t.tokens + 1, directive, raw.length⟩
  have hd : token.directive = .ifOpen condition ∨ token.directive = .whileOpen condition := hd
  rw [host.ask_apply]
  cases hs : frames.suppressed with
  | true =>
    obtain rfl : live = false := by simp [hl, hs]
    obtain ⟨_, r', _, hstep, hst⟩ := h.opens (fun _ => .skipped token site.level) t.vars hr (by
      intro position memory resume
      rw [Host.interpret_condition hd, if_pos hs])
    exact .goes hstep ⟨_, ⟨nofun, rfl, rfl, rfl, rfl, rfl⟩, hst⟩
  | false =>
    obtain rfl : live = true := by simp [hl, hs]
    rw [if_pos rfl]
    cases hdecide : host.decide (t.tokens + 1) t.vars condition with
    | ok holds =>
      have hdecide : host.decide token.id t.vars condition = .ok holds := hdecide
      obtain ⟨resume, r', hat, hstep, hst⟩ := h.opens
        (fun resume =>
          ⟨token, holds, true, site.level, if token.kind.isLoop then some resume else none, none⟩)
        t.vars hr (by
        intro position memory resume
        rw [Host.interpret_condition hd, if_neg (by simp [hs])]
        simp only [Host.openConditional, hdecide])
      exact .goes hstep
        ⟨_, ⟨fun _ hloop => ⟨resume, if_pos hloop, hat⟩, rfl, rfl, rfl, rfl, rfl⟩, hst⟩
    | error e =>
      have hdecide : host.decide token.id t.vars condition = .error e := hdecide
      refine .fails (h.erred hr fun position memory resume => ⟨frames, ?_⟩)
      rw [Host.interpret_condition hd, if_neg (by simp [hs])]
      simp only [Host.openConditional, hdecide]

/-- An `each` asks for its items, opens its block and binds the first of them. -/
theorem gather {name sequence : String} {live : Bool}
    (h : r.Stands g host site (.token raw :: rest) frames t)
    (hr : g.read raw = .ok (.eachOpen name sequence)) (hl : live = !frames.suppressed) :
    r.DoesNext host (fun (opened : Nat × List String) t' r' =>
      match opened.2 with
      | [] => ∃ frame, Opened g site rest opened.1 (.eachOpen name sequence) false live frame ∧
          r'.Stands g host site rest (frame :: frames) t'
      | item :: items => Repeats g host site rest opened.1 name sequence live frames items
          { t' with vars := t'.vars.set name (.str item) } r') (host.gather live sequence t) := by
  let token : Token := ⟨t.tokens + 1, .eachOpen name sequence, raw.length⟩
  rw [host.gather_apply]
  cases hs : frames.suppressed with
  | true =>
    obtain rfl : live = false := by simp [hl, hs]
    obtain ⟨_, r', _, hstep, hst⟩ := h.opens (fun _ => .skipped token site.level) t.vars hr (by
      intro position memory resume
      rw [Host.interpret_eachOpen, if_pos hs])
    exact .goes hstep ⟨_, ⟨nofun, rfl, rfl, rfl, rfl, rfl⟩, hst⟩
  | false =>
    obtain rfl : live = true := by simp [hl, hs]
    rw [if_pos rfl]
    cases hvalue : host.evaluate (t.tokens + 1) t.vars sequence with
    | ok value =>
      dsimp only [Except.map]
      cases hitems : Host.itemsOf value with
      | nil =>
        obtain ⟨_, r', _, hstep, hst⟩ := h.opens
          (fun _ => ⟨token, false, true, site.level, none, none⟩) t.vars hr (by
          intro position memory resume
          rw [Host.interpret_eachOpen, if_neg (by simp [hs])]
          simp only [Host.openEach, hvalue, hitems, token])
        exact .goes hstep ⟨_, ⟨nofun, rfl, rfl, rfl, rfl, rfl⟩, hst⟩
      | cons item items =>
        obtain ⟨resume, r', hat, hstep, hst⟩ := h.opens
          (fun resume => ⟨token, true, true, site.level, some resume, some items⟩)
          (t.vars.set name (.str item)) hr (by
          intro position memory resume
          rw [Host.interpret_eachOpen, if_neg (by simp [hs])]
          simp only [Host.openEach, hvalue, hitems, token])
        exact .goes hstep
          ⟨_, ⟨fun _ _ => ⟨resume, rfl, hat⟩, rfl, rfl, rfl, rfl, rfl⟩, rfl, hst⟩
    | error e =>
      refine .fails (h.erred hr fun position memory resume => ⟨frames, ?_⟩)
      rw [Host.interpret_eachOpen, if_neg (by simp [hs])]
      simp only [Host.openEach, hvalue]

/-! ### Tokens that end a part -/

/-- An `else` opens the other part. -/
theorem elseMark {top : Frame} {below : Frames} {condition : Token.Condition} {id : Nat}
    {holds live : Bool} (h : r.Stands g host site (.token raw :: rest) (top :: below) t)
    (hr : g.read raw = .ok directive) (hk : directive.kind = .elseMark)
    (ho : Opened g site pieces id (.ifOpen condition) holds live top) :
    r.DoesNext host (fun mark t' r' =>
      ∃ frame, Opened g site rest mark .elseMark (live && !holds) live frame ∧
        r'.Stands g host site rest (frame :: top :: below) t') (Effect.token t) := by
  obtain rfl : directive = .elseMark := Token.Directive.eq_of_kind hk rfl
  have hkind : top.kind = .ifOpen := congrArg Token.Directive.kind ho.directive
  obtain ⟨_, r', _, hstep, hst⟩ := h.opens
    (fun _ => ⟨⟨t.tokens + 1, .elseMark, raw.length⟩, top.live && !top.truthy, top.live,
      site.level, none, none⟩) t.vars hr fun position memory resume =>
        Host.interpret_elseMark rfl hkind ho.level
  have htruthy : (top.live && !top.truthy) = (live && !holds) := by rw [ho.live, ho.truthy]
  refine .goes hstep ⟨_, ?_, hst⟩
  exact ⟨nofun, rfl, rfl, htruthy, ho.live, rfl⟩

/-- An `/if` closes an `if`. -/
theorem closeIf {top : Frame} {below : Frames} {condition : Token.Condition} {id : Nat}
    {holds live : Bool} (h : r.Stands g host site (.token raw :: rest) (top :: below) t)
    (hr : g.read raw = .ok directive) (hk : directive.kind = .ifClose)
    (ho : Opened g site pieces id (.ifOpen condition) holds live top) :
    r.DoesNext host (fun _ t' r' => r'.Stands g host site rest below t') (Effect.token t) := by
  obtain rfl : directive = .ifClose := Token.Directive.eq_of_kind hk rfl
  have hkind : top.kind = .ifOpen := congrArg Token.Directive.kind ho.directive
  obtain ⟨r', hstep, hst⟩ := h.ignores hr
    fun position memory resume => Host.interpret_ifClose rfl hkind ho.level
  exact .goes hstep hst

/-- Together with its `else`. -/
theorem closeElse {mark top : Frame} {below : Frames} {condition : Token.Condition} {id id' : Nat}
    {pieces' : List Piece} {holds holds' live live' : Bool}
    (h : r.Stands g host site (.token raw :: rest) (mark :: top :: below) t)
    (hr : g.read raw = .ok directive) (hk : directive.kind = .ifClose)
    (hm : Opened g site pieces' id' .elseMark holds' live' mark)
    (ho : Opened g site pieces id (.ifOpen condition) holds live top) :
    r.DoesNext host (fun _ t' r' => r'.Stands g host site rest below t') (Effect.token t) := by
  obtain rfl : directive = .ifClose := Token.Directive.eq_of_kind hk rfl
  have hmark : mark.kind = .elseMark := congrArg Token.Directive.kind hm.directive
  have hkind : top.kind = .ifOpen := congrArg Token.Directive.kind ho.directive
  obtain ⟨r', hstep, hst⟩ := h.ignores hr
    fun position memory resume => Host.interpret_ifClose_of_mark rfl hmark hm.level hkind ho.level
  exact .goes hstep hst

/-- A `/while` goes back to the body or closes the `while`. -/
theorem closeWhile {top : Frame} {below : Frames} {condition : Token.Condition} {id : Nat}
    {holds live : Bool} (h : r.Stands g host site (.token raw :: rest) (top :: below) t)
    (hr : g.read raw = .ok directive) (hk : directive.kind = .whileClose)
    (ho : Opened g site pieces id (.whileOpen condition) holds live top) :
    r.DoesNext host (fun (again : Bool) t' r' =>
      if again then r'.Stands g host site pieces (top :: below) t'
      else r'.Stands g host site rest below t') (host.askAgain holds id condition t) := by
  obtain rfl : directive = .whileClose := Token.Directive.eq_of_kind hk rfl
  have hinterpret : ∀ {position resume : Nat} {memory : κ},
      host.interpret ⟨t.tokens + 1, .whileClose, raw.length⟩ site.level resume
        ⟨top :: below, position, t.tokens + 1, t.vars, memory⟩ =
      match if holds then host.decide id t.vars condition else .ok false with
      | .ok true => (.ok .again, ⟨top :: below, position, t.tokens + 1, t.vars, memory⟩)
      | .ok false => (.ok .ignore, ⟨below, position, t.tokens + 1, t.vars, memory⟩)
      | .error e => (.error e, ⟨top :: below, position, t.tokens + 1, t.vars, memory⟩) := by
    intro position resume memory
    rw [Host.interpret_whileClose rfl ho.directive ho.level, ho.truthy, ho.id]
  rw [host.askAgain_apply]
  cases hagain : (if holds then host.decide id t.vars condition else .ok false) with
  | ok again =>
    rw [hagain] at hinterpret
    cases again with
    | true =>
      have hholds : holds = true := by
        cases holds with
        | true => rfl
        | false => cases hagain
      obtain ⟨offset, hresume, hat⟩ := ho.resume hholds rfl
      obtain ⟨r', hstep, hst⟩ := h.again hr hresume hat fun position memory resume => hinterpret
      exact .goes hstep hst
    | false =>
      obtain ⟨r', hstep, hst⟩ := h.ignores hr fun position memory resume => hinterpret
      exact .goes hstep hst
  | error e =>
    rw [hagain] at hinterpret
    exact .fails (h.erred hr fun position memory resume => ⟨top :: below, hinterpret⟩)

/-- An `/each` goes back to the body with the next item, or closes the `each` and unbinds its name. -/
theorem closeEach {top : Frame} {below : Frames} {name sequence : String} {id : Nat} {live : Bool}
    {items : List String} (h : r.Stands g host site (.token raw :: rest) (top :: below) t)
    (hr : g.read raw = .ok directive) (hk : directive.kind = .eachClose)
    (ho : Opened g site pieces id (.eachOpen name sequence) true live top)
    (hi : top.items = some items) :
    r.DoesNext host (fun _ => Taking name
      (Repeats g host site pieces id name sequence live below)
      (fun t' r' => r'.Stands g host site rest below t') items) (Effect.token t) := by
  obtain rfl : directive = .eachClose := Token.Directive.eq_of_kind hk rfl
  have hinterpret : ∀ {position resume : Nat} {memory : κ},
      host.interpret ⟨t.tokens + 1, .eachClose, raw.length⟩ site.level resume
        ⟨top :: below, position, t.tokens + 1, t.vars, memory⟩ =
      match top.next? with
      | some (item, frame) => (.ok .again,
          ⟨frame :: below, position, t.tokens + 1, t.vars.set name (.str item), memory⟩)
      | none => (.ok .ignore, ⟨below, position, t.tokens + 1, t.vars.remove name, memory⟩) := by
    intro position resume memory
    rw [Host.interpret_eachClose rfl ho.directive ho.level, ho.truthy, if_pos rfl]
  cases items with
  | nil =>
    have hnext : top.next? = none := by rw [Frame.next?, hi]
    rw [hnext] at hinterpret
    obtain ⟨r', hstep, hst⟩ := h.ignores hr fun position memory resume => hinterpret
    exact .goes hstep hst
  | cons item items =>
    have hnext : top.next? = some (item, { top with items := some items }) := by
      rw [Frame.next?, hi]
    rw [hnext] at hinterpret
    obtain ⟨offset, hresume, hat⟩ := ho.resume rfl rfl
    have hresume : ({ top with items := some items } : Frame).resume = some offset := hresume
    obtain ⟨r', hstep, hst⟩ := h.again hr hresume hat fun position memory resume => hinterpret
    refine .goes hstep ⟨{ top with items := some items }, ?_, rfl, hst⟩
    exact ⟨ho.resume, ho.id, ho.directive, ho.truthy, ho.live, ho.level⟩

/-- An `/each` closes an `each` that was not rendered. -/
theorem closeEach_of_skipped {top : Frame} {below : Frames} {name sequence : String} {id : Nat}
    {live : Bool} (h : r.Stands g host site (.token raw :: rest) (top :: below) t)
    (hr : g.read raw = .ok directive) (hk : directive.kind = .eachClose)
    (ho : Opened g site pieces id (.eachOpen name sequence) false live top) :
    r.DoesNext host (fun _ t' r' => r'.Stands g host site rest below t') (Effect.token t) := by
  obtain rfl : directive = .eachClose := Token.Directive.eq_of_kind hk rfl
  obtain ⟨r', hstep, hst⟩ := h.ignores hr (by
    intro position memory resume
    rw [Host.interpret_eachClose rfl ho.directive ho.level, ho.truthy, if_neg Bool.false_ne_true])
  exact .goes hstep hst

/-- A token out of place fails. -/
theorem stray {inside : Option (Token.Kind × Nat)} {opener : Token.Kind}
    (h : r.Stands g host site (.token raw :: rest) frames t) (hr : g.read raw = .ok directive)
    (hi : Inside site inside frames) (ho : directive.kind.opener? = some opener)
    (hw : (inside.map (·.1)).any directive.kind.ends = false) :
    (r.step host).told = some (.error (.token (t.tokens + 1) (.unmatched directive.kind opener)),
      { t with tokens := t.tokens + 1 }) := by
  refine h.erred hr fun position memory resume => ⟨frames, ?_⟩
  exact @Host.interpret_of_stray κ host ⟨t.tokens + 1, directive, raw.length⟩ site.level resume
    ⟨frames, position, t.tokens + 1, t.vars, memory⟩ opener ho (hi.ends_eq_false hw)

/-! ### Tokens between blocks -/

/-- A definition. -/
theorem define {name : String} {meaning : Token.Meaning} {live : Bool}
    (h : r.Stands g host site (.token raw :: rest) frames t)
    (hr : g.read raw = .ok (.define name meaning)) (hl : live = !frames.suppressed) :
    r.DoesNext host (fun _ t' r' => r'.Stands g host site rest frames t')
      (host.defineName live name meaning t) := by
  rw [host.defineName_apply]
  cases hs : frames.suppressed with
  | true =>
    obtain rfl : live = false := by simp [hl, hs]
    obtain ⟨r', hstep, hst⟩ := h.ignores hr (by
      intro position memory resume
      show (if frames.suppressed then _ else _ : Host.Outcome κ Resolution) = _
      rw [if_pos hs])
    exact .goes hstep hst
  | false =>
    obtain rfl : live = true := by simp [hl, hs]
    rw [if_pos rfl]
    cases hvalue : host.defined (t.tokens + 1) t.vars meaning with
    | ok value =>
      obtain ⟨r', hstep, hst⟩ := h.ignores hr (by
        intro position memory resume
        rw [Host.interpret_define hs]
        dsimp only
        rw [hvalue])
      exact .goes hstep hst
    | error e =>
      refine .fails (h.erred hr fun position memory resume => ⟨frames, ?_⟩)
      rw [Host.interpret_define hs]
      dsimp only
      rw [hvalue]

/-- Literal text. -/
theorem tell {literal : List Char} {live : Bool} {bound : Nat}
    (h : r.Stands g host site (.literal literal :: rest) frames t) (hl : live = !frames.suppressed) :
    r.Does host bound (fun _ t' r' => r'.Stands g host site rest frames t')
      ((if live then Effect.write literal else pure () : Effect Unit) t) := by
  obtain ⟨r', hleads, hst⟩ := h.literal
  cases hs : frames.suppressed with
  | true =>
    obtain rfl : live = false := by simp [hl, hs]
    rw [hs, if_pos rfl] at hst
    exact .goes hleads hst
  | false =>
    obtain rfl : live = true := by simp [hl, hs]
    rw [hs, if_neg Bool.false_ne_true] at hst
    exact .goes hleads hst

omit [SteadySource σ] in
/-- Something is written where the rendering stands. -/
theorem emits {r₀ : Rendering κ σ} {text : List Char} {bound : Nat}
    (h : r.Stands g host site pieces frames t) (hstep : r₀.step host = r.emit text) :
    r₀.Does host bound (fun _ t' r' => r'.Stands g host site pieces frames t')
      (Effect.write text t) := by
  have hwrite := Sink.write_of_room_eq_none h.room text
  have hemit : r.emit text = .running { r with sink := (r.sink.write text).2 } := by
    unfold Rendering.emit Rendering.write
    rw [hwrite]
  refine .goes (.of_running (hstep.trans hemit)) ⟨h.level, h.opened, h.within, h.outer, h.whole,
    Sink.room_write_eq_none h.room text, h.pieces, h.frames, ?_, h.grammar⟩
  rw [hwrite]
  obtain rfl := h.told
  rfl

end Stands

/-- How values with tokens in them are rendered at a site is what `expand` comes to. -/
def Expands [CharSource σ] (g : Token.Grammar) (host : Host κ) (site : Site σ) (limit : Nat)
    (expand : Nat → List Char → Effect Unit) : Prop :=
  ∀ {pieces : List Piece} {frames : Frames} {t : Told} {r : Rendering κ σ} (id : Nat)
    (value : List Char), r.Stands g host site pieces frames t → frames.suppressed = false →
    (∀ top ∈ frames.head?, top.level ≤ site.level) →
    if host.options.maxDepth < site.level + 1 then
      expand id value t = some (.error (.recursionLimit host.options.maxDepth id), t)
    else
      (r.enter value id).Does host limit (fun _ t' r' => r'.Stands g host site pieces frames t')
        (expand id value t)

section
variable [CharSource σ] [SteadySource σ] {host : Host κ} {g : Token.Grammar} {site : Site σ}
  {rest : List Piece} {frames : Frames} {t : Told} {limit : Nat}
  {expand : Nat → List Char → Effect Unit}

omit [SteadySource σ] in
/-- A value is written, or what it means is. -/
theorem Expands.does (hx : Expands g host site limit expand) {r r₀ : Rendering κ σ} {id : Nat}
    {value : List Char} (h : r.Stands g host site rest frames t) (hf : frames.suppressed = false)
    (hl : ∀ top ∈ frames.head?, top.level ≤ site.level)
    (hstep : r₀.step host = Rendering.expand host r value id) :
    r₀.Does host limit (fun _ t' r' => r'.Stands g host site rest frames t')
      ((if Text.contains host.left value then expand id value else Effect.write value) t) := by
  unfold Rendering.expand at hstep
  by_cases hcontains : Text.contains host.left value = true
  · rw [if_pos hcontains] at hstep ⊢
    have hexpand := hx id value h hf hl
    rw [h.level] at hstep
    by_cases hdeep : host.options.maxDepth < site.level + 1
    · rw [if_pos hdeep] at hstep hexpand
      rw [hexpand]
      refine .fails 1 (run_of_told ?_ 0)
      rw [hstep, ← h.told]
      rfl
    · rw [if_neg hdeep] at hstep hexpand
      exact (Leads.of_running hstep).does hexpand
  · rw [if_neg hcontains] at hstep ⊢
    exact h.emits hstep

/-- A token that stands for a value. -/
theorem Stands.value {r : Rendering κ σ} {raw : List Char} {directive : Token.Directive}
    {live : Bool} {inside : Option (Token.Kind × Nat)}
    (h : r.Stands g host site (.token raw :: rest) frames t) (hr : g.read raw = .ok directive)
    (hw : directive.kind.isWritten = true) (hc : host.callback = none)
    (hi : Inside site inside frames) (hl : live = !frames.suppressed)
    (hx : Expands g host site limit expand) :
    r.Does host limit (fun _ t' r' => r'.Stands g host site rest frames t')
      (host.tellValue expand live directive t) := by
  have hinterpret : ∀ position memory resume,
      host.interpret ⟨t.tokens + 1, directive, raw.length⟩ site.level resume
        ⟨frames, position, t.tokens + 1, t.vars, memory⟩ =
      (.ok (if frames.suppressed then .ignore else host.resolution t.vars directive),
        ⟨frames, position, t.tokens + 1, t.vars, memory⟩) :=
    fun position memory resume => Host.interpret_value hw hc
  obtain ⟨_, r', rfl, hstep, hst⟩ := h.resolved (P := (frames = ·)) hr
    fun position memory resume _ => ⟨frames, rfl, hinterpret position memory resume⟩
  cases hs : frames.suppressed with
  | true =>
    obtain rfl : live = false := by simp [hl, hs]
    rw [hs, if_pos rfl] at hstep
    exact .goes (.of_running hstep) hst
  | false =>
    obtain rfl : live = true := by simp [hl, hs]
    rw [hs, if_neg Bool.false_ne_true] at hstep
    have htell : host.tellValue expand true directive t =
        host.writeValue expand (t.tokens + 1) directive ⟨t.text, t.vars, t.tokens + 1⟩ := rfl
    rw [htell, Host.writeValue_apply]
    unfold Host.resolution at hstep
    cases hresolve : host.resolve t.vars directive with
    | ok value =>
      rw [hresolve] at hstep
      exact hx.does hst hs hi.level_le hstep
    | error missing =>
      rw [hresolve] at hstep
      dsimp only
      cases hmissing : host.options.missing with
      | ignore =>
        rw [hmissing] at hstep
        exact .goes (.of_running hstep) hst
      | mark =>
        rw [hmissing] at hstep
        exact hst.emits hstep

end

end Rendering

end Stencil
