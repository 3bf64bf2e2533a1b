/-! Sources of characters. A source is asked for characters a few at a time; it may give fewer than it
is asked for, and it may fail and be asked again. -/
namespace Stencil

/-- A type of sources. -/
class CharSource (σ : Type) where
  /-- Ask for at most `limit` characters. None at all mean the end, if some were asked for. -/
  read : (source : σ) → (limit : Nat) → Except String (List Char) × σ
  /-- A bound on the number of characters that are still to come. -/
  bound : σ → Nat
  /-- No read gives more than it was asked for. -/
  length_le_limit : ∀ {source limit cs source'},
    read source limit = (.ok cs, source') → cs.length ≤ limit
  /-- What a read gives is taken off the bound. -/
  bound_of_ok : ∀ {source limit cs source'},
    read source limit = (.ok cs, source') → cs.length + bound source' ≤ bound source
  /-- A read that fails does not raise the bound. -/
  bound_of_error : ∀ {source limit e source'},
    read source limit = (.error e, source') → bound source' ≤ bound source

/-- A text as a source: it gives all it is asked for. -/
structure TextSource where
  rest : List Char

namespace TextSource

def ofString (text : String) : TextSource := ⟨text.toList⟩

def read (source : TextSource) (limit : Nat) : Except String (List Char) × TextSource :=
  (.ok (source.rest.take limit), ⟨source.rest.drop limit⟩)

instance : CharSource TextSource where
  read := read
  bound source := source.rest.length
  length_le_limit h := by
    simp only [read, Prod.mk.injEq, Except.ok.injEq] at h
    rw [← h.1, List.length_take]
    omega
  bound_of_ok h := by
    simp only [read, Prod.mk.injEq, Except.ok.injEq] at h
    rw [← h.1, ← h.2, List.length_take, List.length_drop]
    omega
  bound_of_error h := by simp [read] at h

end TextSource

end Stencil
