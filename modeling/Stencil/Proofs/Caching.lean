import Mathlib.Data.List.Dedup
import Mathlib.Data.List.Induction
import Stencil.Expr.Evaluator

/-! What a cache remembers.

A cache holds the texts that were looked up since it was last emptied, each once and with the outcome
of reading it, whether or not it could be read (`CompileCache.Holds`). Every use keeps it that way
(`Holds.apply`), so a cache answers as if there were none, and a text is read when it is looked up for
the first time since then (`answers_size_compiles`). -/
namespace Stencil.CompileCache

/-! ### Uses of a cache -/

/-- What is asked of a cache. -/
inductive Use where
  /-- Read a text as an expression. -/
  | compile (text : String)
  /-- Give an expression text its value. -/
  | evaluate (text : String) (vars : Variables)
  | clear

inductive Answer where
  /-- The expression that a text is, or why it is none. -/
  | lambda (outcome : Eval Lambda)
  /-- The value of an expression text, or why it has none. -/
  | value (outcome : Eval Value)
  | done

namespace Use

def text? : Use → Option String
  | compile text => some text
  | evaluate text _ => some (String.ofList (Text.trim text.toList))
  | clear => none

/-- What a cache answers, and the cache after it. -/
def apply (cache : CompileCache) : Use → Answer × CompileCache
  | compile text => (.lambda (cache.compile text).1, (cache.compile text).2)
  | evaluate text vars => (.value (cache.evaluate text vars).1, (cache.evaluate text vars).2)
  | clear => (.done, cache.clear)

def answer : Use → Answer
  | compile text => .lambda (Lambda.parse text)
  | evaluate text vars => .value (Evaluator.standard text vars)
  | clear => .done

end Use

/-- What a cache answers to some uses, one after the other, and the cache after them. -/
def useAll (cache : CompileCache) : List Use → List Answer × CompileCache
  | [] => ([], cache)
  | use :: uses =>
    let (answer, cache) := use.apply cache
    let (answers, cache) := cache.useAll uses
    (answer :: answers, cache)

theorem useAll_concat (cache : CompileCache) (uses : List Use) (use : Use) :
    cache.useAll (uses ++ [use]) =
      ((cache.useAll uses).1 ++ [(use.apply (cache.useAll uses).2).1],
        (use.apply (cache.useAll uses).2).2) := by
  induction uses generalizing cache with
  | nil => rfl
  | cons first uses ih => simp only [List.cons_append, useAll, ih]

/-- The texts that were looked up since the last use that emptied the cache, last one first. -/
def recent (uses : List Use) : List String :=
  (uses.reverse.takeWhile fun use => use.text?.isSome).filterMap Use.text?

/-- The texts looked up after one more use. -/
def recentAfter (texts : List String) (use : Use) : List String :=
  match use.text? with
  | some text => text :: texts
  | none => []

theorem recent_concat (uses : List Use) (use : Use) :
    recent (uses ++ [use]) = recentAfter (recent uses) use := by
  unfold recent recentAfter
  rw [List.reverse_concat, List.takeWhile_cons]
  cases h : use.text? with
  | none => rfl
  | some text => simp [h]

/-! ### What is held -/

/-- The cache holds just these texts, each with the outcome of reading it. -/
def Holds (texts : List String) (cache : CompileCache) : Prop :=
  cache.entries = texts.dedup.reverse.map fun text => (text, Lambda.parse text)

namespace Holds
variable {texts : List String} {cache : CompileCache}

theorem size_eq (h : cache.Holds texts) : cache.size = texts.dedup.length := by
  rw [size, h, List.length_map, List.length_reverse]

theorem lookup_of_mem (h : cache.Holds texts) {text : String} (ht : text ∈ texts) :
    cache.entries.lookup text = some (Lambda.parse text) := by
  rw [h]
  exact List.lookup_graph Lambda.parse (List.mem_reverse.2 (List.mem_dedup.2 ht))

theorem lookup_of_notMem (h : cache.Holds texts) {text : String} (ht : text ∉ texts) :
    cache.entries.lookup text = none := by
  rw [h, List.lookup_eq_none_iff]
  rintro entry hm
  obtain ⟨other, ho, rfl⟩ := List.mem_map.1 hm
  have hne : text ≠ other := fun he => ht (he ▸ List.mem_dedup.1 (List.mem_reverse.1 ho))
  simpa using hne

/-- A text that was looked up before is not read again. -/
theorem compile_of_mem (h : cache.Holds texts) {text : String} (ht : text ∈ texts) :
    cache.compile text = (Lambda.parse text, cache) := by
  unfold compile
  rw [h.lookup_of_mem ht]

/-- Any other is read, and is held from then on. -/
theorem compile_of_notMem (h : cache.Holds texts) {text : String} (ht : text ∉ texts) :
    cache.compile text =
      (Lambda.parse text,
        ⟨cache.entries ++ [(text, Lambda.parse text)], cache.compiles + 1⟩) := by
  unfold compile
  rw [h.lookup_of_notMem ht]

theorem compile (h : cache.Holds texts) (text : String) :
    (cache.compile text).1 = Lambda.parse text ∧
      (cache.compile text).2.Holds (text :: texts) ∧
      (cache.compile text).2.compiles = cache.compiles + if text ∈ texts then 0 else 1 := by
  by_cases ht : text ∈ texts
  · rw [h.compile_of_mem ht, if_pos ht]
    refine ⟨rfl, ?_, rfl⟩
    rw [Holds, List.dedup_cons_of_mem ht]
    exact h
  · rw [h.compile_of_notMem ht, if_neg ht]
    refine ⟨rfl, ?_, rfl⟩
    rw [Holds, List.dedup_cons_of_notMem ht, List.reverse_cons, List.map_append]
    exact congrArg (· ++ [(text, Lambda.parse text)]) h

/-- A use is answered as if nothing were remembered, and what it looks up is held from then on. -/
theorem apply (h : cache.Holds texts) (use : Use) :
    (use.apply cache).1 = use.answer ∧
      (use.apply cache).2.Holds (recentAfter texts use) ∧
      (use.apply cache).2.compiles =
        cache.compiles + (use.text?.elim 0 fun text => if text ∈ texts then 0 else 1) := by
  cases use with
  | compile text =>
    obtain ⟨hanswer, hholds, hcompiles⟩ := h.compile text
    exact ⟨congrArg Answer.lambda hanswer, hholds, hcompiles⟩
  | evaluate text vars =>
    obtain ⟨hanswer, hholds, hcompiles⟩ := h.compile (String.ofList (Text.trim text.toList))
    refine ⟨?_, hholds, hcompiles⟩
    show Answer.value ((cache.compile _).1.bind (·.eval vars)) = _
    rw [hanswer]
    rfl
  | clear => exact ⟨rfl, rfl, rfl⟩

end Holds

theorem holds_useAll (uses : List Use) : (useAll {} uses).2.Holds (recent uses) := by
  induction uses using List.reverseRecOn with
  | nil => rfl
  | append_singleton uses use ih =>
    rw [useAll_concat, recent_concat]
    exact (ih.apply use).2.1

/-- **A cache does not show**, but for how often texts are read: whatever is asked of it and however
often it is emptied, each text is read, and each expression text evaluated, with the outcome it has
without a cache, also where it cannot be read; what is kept is each text that was looked up since the
cache was last emptied, once; and a text is read when it is looked up for the first time since then. -/
theorem answers_size_compiles (uses : List Use) :
    (useAll {} uses).1 = uses.map Use.answer ∧
      (useAll {} uses).2.size = (recent uses).dedup.length ∧
      (useAll {} []).2.compiles = 0 ∧
      ∀ use, (useAll {} (uses ++ [use])).2.compiles =
        (useAll {} uses).2.compiles +
          (use.text?.elim 0 fun text => if text ∈ recent uses then 0 else 1) := by
  refine ⟨?_, (holds_useAll uses).size_eq, rfl, fun use => ?_⟩
  · induction uses using List.reverseRecOn with
    | nil => rfl
    | append_singleton uses use ih =>
      rw [useAll_concat, List.map_append, ih]
      exact congrArg (fun answer => uses.map Use.answer ++ [answer])
        ((holds_useAll uses).apply use).1
  · rw [useAll_concat]
    exact ((holds_useAll uses).apply use).2.2

/-- A text that cannot be read is read once, and once more after the cache was emptied. -/
example :
    let uses : List Use := [.compile "x =>", .evaluate " x => " {}, .clear, .compile "x =>"]
    (useAll {} uses).2.compiles = 2 ∧ (useAll {} uses).2.size = 1 := by
  decide +kernel

end Stencil.CompileCache
