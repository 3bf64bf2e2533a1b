import Stencil.Proofs.Likeness
import Stencil.Proofs.Refinement
import Stencil.Proofs.Seam

/-! Rendering one text behind another.

A template that is put behind another one is rendered with the variables that the other one left behind,
as if it stood alone (`Renderer.yields_append_iff`). For what both mean is what the front one means and
then what the back one does (`Blocks.eval_join`), which depends on the variables alone. -/
namespace Stencil

namespace Effect
variable {α β : Type}

/-- Where one effect after the other goes on, so did the first. -/
theorem exists_of_bind {x : Effect α} {f : α → Effect β} {t t' : Told} {b : β}
    (h : (x >>= f) t = some (.ok b, t')) :
    ∃ a t₁, x t = some (.ok a, t₁) ∧ f a t₁ = some (.ok b, t') := by
  rw [bind_apply] at h
  cases hx : x t with
  | none =>
    rw [hx] at h
    cases h
  | some out =>
    obtain ⟨result, t₁⟩ := out
    rw [hx] at h
    cases result with
    | error e => cases h
    | ok a => exact ⟨a, t₁, rfl, h⟩

/-- A loop has a first round. -/
theorem exists_of_repeatWhile {round : Effect Unit} {again : Effect Bool} {limit : Nat} {t t' : Told}
    (h : repeatWhile round again limit t = some (.ok (), t')) :
    ∃ t₁, round t = some (.ok (), t₁) := by
  cases limit with
  | zero => cases h
  | succ limit =>
    obtain ⟨_, t₁, hround, _⟩ := exists_of_bind h
    exact ⟨t₁, hround⟩

theorem exists_of_forEach {round : Effect Unit} {name : String} {items : List String} {t t' : Told}
    (h : forEach name round items t = some (.ok (), t')) :
    ∃ t₀ t₁, round t₀ = some (.ok (), t₁) := by
  cases items with
  | nil => exact ⟨t, t', h⟩
  | cons item items =>
    obtain ⟨_, t₀, _, h⟩ := exists_of_bind h
    obtain ⟨_, t₁, hround, _⟩ := exists_of_bind h
    exact ⟨t₀, t₁, hround⟩

theorem write_append (text more : List Char) :
    write (text ++ more) = write text >>= fun _ => write more := by
  funext t
  rw [bind_apply]
  show some (Except.ok (), { t with text := t.text ++ String.ofList (text ++ more) }) =
    some (.ok (), { t with text := t.text ++ String.ofList text ++ String.ofList more })
  rw [String.ofList_append, String.append_assoc]

end Effect

namespace Blocks
variable {κ : Type} {host : Host κ} {limit : Nat} {expand : Nat → List Char → Effect Unit}
  {within : Option Nat}

/-- Blocks that come to an end are complete. -/
theorem complete_of_eval {blocks : Blocks} {inside : Option (Token.Kind × Nat)} {live : Bool}
    {t t' : Told} (h : blocks.eval host limit expand within inside live t = some (.ok (), t')) :
    blocks.Complete inside.isSome := by
  induction blocks generalizing inside live t t' with
  | closed => trivial
  | ending =>
    cases inside with
    | none => rfl
    | some opener => cases h
  | unclosed offset => cases h
  | faulty fault => cases h
  | text literal rest ih =>
    rw [eval_text] at h
    obtain ⟨_, _, _, h⟩ := Effect.exists_of_bind h
    exact ih h
  | value directive rest ih =>
    obtain ⟨_, _, _, h⟩ := Effect.exists_of_bind h
    exact ih h
  | define name meaning rest ih =>
    obtain ⟨_, _, _, h⟩ := Effect.exists_of_bind h
    exact ih h
  | ifThen condition yes rest ihy ih =>
    obtain ⟨_, _, _, h⟩ := Effect.exists_of_bind h
    obtain ⟨_, _, hyes, h⟩ := Effect.exists_of_bind h
    obtain ⟨_, _, _, h⟩ := Effect.exists_of_bind h
    exact ⟨ihy hyes, ih h⟩
  | ifElse condition yes no rest ihy ihn ih =>
    obtain ⟨_, _, _, h⟩ := Effect.exists_of_bind h
    obtain ⟨_, _, hyes, h⟩ := Effect.exists_of_bind h
    obtain ⟨_, _, _, h⟩ := Effect.exists_of_bind h
    obtain ⟨_, _, hno, h⟩ := Effect.exists_of_bind h
    obtain ⟨_, _, _, h⟩ := Effect.exists_of_bind h
    exact ⟨ihy hyes, ihn hno, ih h⟩
  | whileLoop condition body rest ihb ih =>
    obtain ⟨_, _, _, h⟩ := Effect.exists_of_bind h
    obtain ⟨_, _, hrounds, h⟩ := Effect.exists_of_bind h
    obtain ⟨_, hround⟩ := Effect.exists_of_repeatWhile hrounds
    exact ⟨ihb hround, ih h⟩
  | eachLoop name sequence body rest ihb ih =>
    obtain ⟨_, _, _, h⟩ := Effect.exists_of_bind h
    obtain ⟨_, _, hrounds, h⟩ := Effect.exists_of_bind h
    obtain ⟨_, _, hround⟩ := Effect.exists_of_forEach hrounds
    obtain ⟨_, _, hbody, _⟩ := Effect.exists_of_bind hround
    exact ⟨ihb hbody, ih h⟩

theorem eval_prepend (front : List Char) (blocks : Blocks) (inside : Option (Token.Kind × Nat))
    (live : Bool) :
    (blocks.prepend front).eval host limit expand within inside live =
      ((if live then Effect.write front else pure () : Effect Unit) >>= fun _ =>
        blocks.eval host limit expand within inside live) := by
  cases blocks with
  | text more rest =>
    rw [prepend, eval_text, eval_text, ← bind_assoc]
    cases live with
    | true => simp only [if_true, Effect.write_append]
    | false => rfl
  | _ => exact eval_text ..

/-- Blocks that go on with others mean the one and then the other. -/
theorem eval_join (blocks back : Blocks) (live : Bool) :
    (blocks.join back).eval host limit expand within none live =
      (blocks.eval host limit expand within none live >>= fun _ =>
        back.eval host limit expand within none live) := by
  induction blocks generalizing live with
  | closed => rfl
  | ending => rfl
  | unclosed offset => rfl
  | faulty fault => rfl
  | text literal rest ih =>
    by_cases hn : rest = .ending
    · subst hn
      rw [eval_text, bind_assoc]
      exact eval_prepend literal back none live
    · rw [join_text_of_ne_ending hn, eval_text, eval_text, ih, bind_assoc]
  | value directive rest ih => simp only [join, eval, ih, bind_assoc]
  | define name meaning rest ih => simp only [join, eval, ih, bind_assoc]
  | ifThen condition yes rest ihy ih => simp only [join, eval, ih, bind_assoc]
  | ifElse condition yes no rest ihy ihn ih => simp only [join, eval, ih, bind_assoc]
  | whileLoop condition body rest ihb ih => simp only [join, eval, ih, bind_assoc]
  | eachLoop name sequence body rest ihb ih => simp only [join, eval, ih, bind_assoc]

end Blocks

namespace Effect.Matches
variable {text text' : String} {t : Told}
  {out : Option (Except RenderError Unit × Told)}

/-- What goes on is matched by what goes on. -/
theorem of_ok (h : Matches Eq text text' (some (.ok (), t)) out) :
    ∃ more tokens, t.text = text ++ more ∧
      out = some (.ok (), ⟨text' ++ more, t.vars, tokens⟩) := by
  cases h with
  | goes h => exact ⟨_, _, rfl, rfl⟩

theorem of_ok' (h : Matches Eq text text' out (some (.ok (), t))) :
    ∃ more tokens, t.text = text' ++ more ∧
      out = some (.ok (), ⟨text ++ more, t.vars, tokens⟩) := by
  cases h with
  | goes h => exact ⟨_, _, rfl, rfl⟩

end Effect.Matches

/-- Behind a template that comes to an end, another one means what it means alone. -/
theorem Host.matches_meaning_append {κ : Type} {host : Host κ} {limit : Nat} {front : List Char}
    {t t' : Told} (hm : host.options.missing = .ignore)
    (hp : (host.grammar t.vars).pending front = 0)
    (h : host.meaning limit front t = some (.ok (), t'))
    (hg : host.grammar t'.vars = host.grammar t.vars) (back : List Char) :
    Effect.Matches Eq "" t'.text (host.meaning limit back { text := "", vars := t'.vars })
      (host.meaning limit (front ++ back) t) := by
  have hmeaning : ∀ template (t : Told), host.meaning limit template t =
      ((host.grammar t.vars).blocks false template).eval host limit
        (host.expansion limit (host.grammar t.vars) host.options.maxDepth) none none true t :=
    fun _ _ => rfl
  rw [hmeaning] at h
  rw [hmeaning, hmeaning, hg, Token.Grammar.blocks_append hp (Blocks.complete_of_eval h),
    Blocks.eval_join, Effect.bind_apply, h]
  exact Blocks.alike_eval hm (Host.alike_expansion hm limit _ _) none none front.length _ none none
    rfl true "" t'.text t'.vars 0 t'.tokens

namespace Renderer
variable {κ : Type} {renderer : Renderer κ}

/-- A template is rendered to its end without failing, which writes that text and leaves those variables
behind. -/
def Yields (renderer : Renderer κ) (memory : κ) (pool : Pool) (template : String) (vars : Variables)
    (text : String) (vars' : Variables) : Prop :=
  ∃ steps rendered, renderer.renderText steps template vars memory pool = some rendered ∧
    rendered.result = .ok () ∧ rendered.sink.text = text ∧ rendered.vars = vars'

variable {memory : κ} {pool : Pool} {template text : String} {vars vars' : Variables}

/-- A template that is rendered to its end means the same however many rounds there may be, from some
number of rounds on. -/
theorem Yields.exists_meaning (hc : renderer.host.callback = none)
    (h : renderer.Yields memory pool template vars text vars') :
    ∃ steps tokens, ∀ limit, steps < limit →
      renderer.host.meaning limit template.toList { text := "", vars } =
        some (.ok (), ⟨text, vars', tokens⟩) := by
  obtain ⟨steps, tokens, htold⟩ :=
    (renderer.renderText_iff_told template vars vars' memory pool (.ok ()) text).1 h
  have hroom : ({} : Sink).room = none := rfl
  exact ⟨steps, tokens, fun limit hl => Host.meaning_of_told hc hroom htold hl⟩

theorem yields_of_meaning (hc : renderer.host.callback = none) (memory : κ) (pool : Pool)
    {limit tokens : Nat} (h : renderer.host.meaning limit template.toList { text := "", vars } =
      some (.ok (), ⟨text, vars', tokens⟩)) :
    renderer.Yields memory pool template vars text vars' := by
  have hroom : ({} : Sink).room = none := rfl
  have hstart := Host.run_start hc template.toList vars memory pool hroom limit (σ := TextSource)
  rw [show renderer.host.meaning limit template.toList ⟨({} : Sink).text, vars, 0⟩ = _ from h]
    at hstart
  obtain ⟨steps, htold⟩ := hstart
  exact (renderer.renderText_iff_told template vars vars' memory pool (.ok ()) text).2
    ⟨steps, tokens, htold⟩

/-- Where the rendering comes to the end of the template, the search for a left delimiter has matched
nothing that another text could go on with. -/
def EndsUnmatched (renderer : Renderer κ) (memory : κ) (pool : Pool) (template : String)
    (vars : Variables) : Prop :=
  let window : Window TextSource := .fixed template.toList
  ∀ steps r r', (Rendering.start window 0 { vars, memory } pool {}).run renderer.host steps = .running r →
    r.step renderer.host = .finished r' →
    ((Rendering.textScan renderer.host 0).scan
      (template.toList.drop r.passage.window.cursor)).scan.left.matched = 0

/-- A template that is rendered to its end ends so just if nothing is pending in its text. -/
theorem Yields.endsUnmatched_iff (h : renderer.Yields memory pool template vars text vars') :
    renderer.EndsUnmatched memory pool template vars ↔
      (renderer.host.grammar vars).pending template.toList = 0 := by
  constructor
  · intro hends
    obtain ⟨steps, rendered, hrun, hresult, -⟩ := h
    obtain ⟨done, hdone⟩ := Rendered.exists_finished hrun hresult
    obtain ⟨last, r, -, hr, hs, -⟩ := Rendering.exists_of_run_ended hdone nofun
    have hmatched := Rendering.matched_of_finished (Window.shows_fixed _) rfl rfl rfl hr hs
    exact hmatched.symm.trans (hends last r done hr hs)
  · intro hp steps r r' hr hs
    have hmatched := Rendering.matched_of_finished (Window.shows_fixed _) rfl rfl rfl hr hs
    exact hmatched.trans hp

/-- **Rendering goes on behind a template as if it began there**: if a template is rendered to its end
and the search for a left delimiter has matched nothing there, the template with another one behind it is
rendered to its end exactly if the other one is, with the variables that the first left behind; then the
text of the other one stands behind that of the first, and the variables in the end are its own. -/
theorem yields_append_iff (renderer : Renderer κ) (hm : renderer.host.options.missing = .ignore)
    (hc : renderer.host.callback = none) {memory memory' : κ} {pool pool' : Pool}
    {front front' : String} {vars vars' : Variables}
    (hfront : renderer.Yields memory pool front vars front' vars')
    (hends : renderer.EndsUnmatched memory pool front vars) (back text : String)
    (vars'' : Variables) :
    renderer.Yields memory pool (front ++ back) vars text vars'' ↔
      ∃ back', text = front' ++ back' ∧
        renderer.Yields memory' pool' back vars' back' vars'' := by
  have hp := hfront.endsUnmatched_iff.1 hends
  obtain ⟨steps, tokens, hmeaning⟩ := hfront.exists_meaning hc
  have hmatches : ∀ limit, steps < limit → Effect.Matches Eq "" front'
      (renderer.host.meaning limit back.toList { text := "", vars := vars' })
      (renderer.host.meaning limit (front ++ back).toList { text := "", vars }) := by
    intro limit hl
    rw [String.toList_append]
    exact Host.matches_meaning_append hm hp (hmeaning limit hl)
      (Host.grammar_of_meaning hc (hmeaning limit hl) memory) back.toList
  constructor
  · intro h
    obtain ⟨steps', tokens', hwhole⟩ := h.exists_meaning hc
    have h := hmatches (steps + steps' + 1) (by omega)
    rw [hwhole _ (by omega)] at h
    obtain ⟨back', tokens'', rfl, hback⟩ := h.of_ok'
    rw [String.empty_append] at hback
    exact ⟨back', rfl, yields_of_meaning hc memory' pool' hback⟩
  · rintro ⟨back', rfl, h⟩
    obtain ⟨steps', tokens', hback⟩ := h.exists_meaning hc
    have h := hmatches (steps + steps' + 1) (by omega)
    rw [hback _ (by omega)] at h
    obtain ⟨more, tokens'', hmore, hwhole⟩ := h.of_ok
    rw [String.empty_append] at hmore
    rw [← hmore] at hwhole
    exact yields_of_meaning hc memory pool hwhole

/-- A loop that defines a name, and behind it a text that uses the name and one that is not defined. -/
theorem yields_append_of_loop :
    let renderer : Renderer Unit := ⟨{ options := .permissive }, rfl⟩
    let vars : Variables := .ofList [("xs", .list [.str "a", .str "b"])]
    let front := "{{each x: v => v.xs}}{{x}}{{y: {{v => v.x}}}}, {{/each}}"
    let back := "{{if y}}{{y}}{{/if}}{{x}}."
    renderer.EndsUnmatched () ⟨[], 0, 0⟩ front vars ∧
      ∃ vars' vars'', renderer.Yields () ⟨[], 0, 0⟩ front vars "a, b, " vars' ∧
        renderer.Yields () ⟨[], 0, 0⟩ back vars' "b." vars'' ∧
        renderer.Yields () ⟨[], 0, 0⟩ (front ++ back) vars "a, b, b." vars'' := by
  intro renderer vars front back
  have hrun : ((renderer.renderText 30 front vars () ⟨[], 0, 0⟩).bind fun first =>
      (renderer.renderText 30 back first.vars () ⟨[], 0, 0⟩).map fun second =>
        (first.result, first.sink.text, second.result, second.sink.text)) =
      some (.ok (), "a, b, ", .ok (), "b.") := by
    decide +kernel
  obtain ⟨first, hfirst, hrun⟩ := Option.bind_eq_some_iff.1 hrun
  obtain ⟨second, hsecond, hout⟩ := Option.map_eq_some_iff.1 hrun
  obtain ⟨hresult, htext, hresult', htext'⟩ : first.result = .ok () ∧ first.sink.text = "a, b, " ∧
      second.result = .ok () ∧ second.sink.text = "b." := by
    simpa only [Prod.mk.injEq] using hout
  have hfront : renderer.Yields () ⟨[], 0, 0⟩ front vars "a, b, " first.vars :=
    ⟨30, first, hfirst, hresult, htext, rfl⟩
  have hends : renderer.EndsUnmatched () ⟨[], 0, 0⟩ front vars :=
    hfront.endsUnmatched_iff.2 (by decide +kernel)
  have hback : renderer.Yields () ⟨[], 0, 0⟩ back first.vars "b." second.vars :=
    ⟨30, second, hsecond, hresult', htext', rfl⟩
  exact ⟨hends, first.vars, second.vars, hfront, hback,
    (renderer.yields_append_iff rfl rfl hfront hends back _ _).2 ⟨"b.", rfl, hback⟩⟩

end Renderer

end Stencil
