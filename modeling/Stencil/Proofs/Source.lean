import Stencil.Source

/-! Sources as the text that they tell.

A source may give less than it is asked for and may fail, but what it gives is the front of the text
still to come, and a read that fails loses nothing of it. `FaithfulSource` says so of a type of
sources; nothing is said about when a read fails, so one that failed may give something when it is
tried again. A `SteadySource` moreover fails only behind its text, and then always in one way. -/
namespace Stencil

/-- A type of sources each of which tells a text. -/
class FaithfulSource (σ : Type) [CharSource σ] where
  /-- The text still to come. -/
  rest : σ → List Char
  /-- A read gives the front of it. -/
  rest_of_ok : ∀ {source source' : σ} {limit : Nat} {cs : List Char},
    CharSource.read source limit = (.ok cs, source') → 0 < limit → rest source = cs ++ rest source'
  /-- A read that gives nothing says that the text is at its end. -/
  rest_of_end : ∀ {source source' : σ} {limit : Nat},
    CharSource.read source limit = (.ok [], source') → 0 < limit → rest source = []
  /-- A read that fails loses nothing. -/
  rest_of_error : ∀ {source source' : σ} {limit : Nat} {e : String},
    CharSource.read source limit = (.error e, source') → 0 < limit → rest source' = rest source

/-- A type of sources that fail behind their text, if at all. -/
class SteadySource (σ : Type) [CharSource σ] extends FaithfulSource σ where
  /-- How reads fail behind the text; none, if they report its end. -/
  ending : σ → Option String
  /-- What comes behind the text does not depend on how far it is read. -/
  ending_of_ok : ∀ {source source' : σ} {limit : Nat} {cs : List Char},
    CharSource.read source limit = (.ok cs, source') → 0 < limit → ending source' = ending source
  /-- The end is reported where nothing else comes. -/
  ending_of_end : ∀ {source source' : σ} {limit : Nat},
    CharSource.read source limit = (.ok [], source') → 0 < limit → ending source = none
  /-- A failure comes behind the text. -/
  rest_of_failure : ∀ {source source' : σ} {limit : Nat} {e : String},
    CharSource.read source limit = (.error e, source') → 0 < limit → rest source = []
  /-- It is the one that comes there. -/
  ending_of_failure : ∀ {source source' : σ} {limit : Nat} {e : String},
    CharSource.read source limit = (.error e, source') → 0 < limit → ending source = some e

namespace TextSource

instance : SteadySource TextSource where
  rest := TextSource.rest
  ending _ := none
  rest_of_ok {source source' limit cs} h _ := by
    cases h
    exact (List.take_append_drop limit source.rest).symm
  rest_of_end {source source' limit} h hl := by
    have hcs : source.rest.take limit = [] := by
      injection congrArg Prod.fst h
    cases hr : source.rest with
    | nil => rfl
    | cons c cs =>
      rw [hr, List.take_eq_nil_iff] at hcs
      rcases hcs with h0 | hn
      · omega
      · cases hn
  rest_of_error h _ := by cases h
  ending_of_ok _ _ := rfl
  ending_of_end _ _ := rfl
  rest_of_failure h _ := by cases h
  ending_of_failure h _ := by cases h

end TextSource

/-! ### A source that fails now and then -/

/-- A text that is given in pieces, with failures between them. -/
structure FlakySource where
  text : List Char
  /-- How the next reads are answered: with a failure, or with so many characters and one more. Later
  ones give all they are asked for. -/
  plan : List (Except String Nat) := []

namespace FlakySource

/-- Take characters off the text. -/
def give (source : FlakySource) (limit : Nat) : Except String (List Char) × FlakySource :=
  (.ok (source.text.take limit), { source with text := source.text.drop limit })

def read (source : FlakySource) (limit : Nat) : Except String (List Char) × FlakySource :=
  match source.plan with
  | [] => source.give limit
  | .error e :: plan => (.error e, { source with plan })
  | .ok count :: plan => ({ source with plan } : FlakySource).give (min limit (count + 1))

/-- What a read gives is the front of the text, and no longer than it was asked for. -/
theorem text_of_ok {source source' : FlakySource} {limit : Nat} {cs : List Char}
    (h : source.read limit = (.ok cs, source')) :
    source.text = cs ++ source'.text ∧ cs.length ≤ limit ∧
      (cs = [] → 0 < limit → source.text = []) := by
  obtain ⟨text, plan⟩ := source
  cases plan with
  | nil =>
    cases h
    refine ⟨(List.take_append_drop limit text).symm, List.length_take_le .., fun hn hl => ?_⟩
    rcases List.take_eq_nil_iff.1 hn with h0 | ht
    · omega
    · exact ht
  | cons answer plan =>
    cases answer with
    | error e => cases h
    | ok count =>
      cases h
      refine ⟨(List.take_append_drop _ text).symm, ?_, fun hn hl => ?_⟩
      · exact Nat.le_trans (List.length_take_le ..) (Nat.min_le_left ..)
      · rcases List.take_eq_nil_iff.1 hn with h0 | ht
        · omega
        · exact ht

/-- A read that fails leaves the text. -/
theorem text_of_error {source source' : FlakySource} {limit : Nat} {e : String}
    (h : source.read limit = (.error e, source')) : source'.text = source.text := by
  obtain ⟨text, plan⟩ := source
  cases plan with
  | nil => cases h
  | cons answer plan =>
    cases answer with
    | error e => cases h; rfl
    | ok count => cases h

instance : CharSource FlakySource where
  read := read
  bound source := source.text.length
  length_le_limit h := (text_of_ok h).2.1
  bound_of_ok h := Nat.le_of_eq (by rw [(text_of_ok h).1, List.length_append])
  bound_of_error h := Nat.le_of_eq (by rw [text_of_error h])

instance : FaithfulSource FlakySource where
  rest := text
  rest_of_ok h _ := (text_of_ok h).1
  rest_of_end h hl := (text_of_ok h).2.2 rfl hl
  rest_of_error h _ := text_of_error h

end FlakySource

end Stencil
