/-! Whole numbers of 64 bits, reached from exact ones. Arithmetic is done on `Int` and brought back
by `int64?`, so a result is exact or absent and nothing wraps. -/
namespace Stencil

/-- The 64-bit integer with that value, if it has one. -/
def int64? (n : Int) : Option Int64 :=
  if -0x8000000000000000 ≤ n ∧ n < 0x8000000000000000 then some (Int64.ofInt n) else none

theorem int64?_eq_some_iff {n : Int} {i : Int64} : int64? n = some i ↔ i.toInt = n := by
  unfold int64?
  constructor
  · split
    · rintro h
      obtain rfl := Option.some.inj h
      exact Int64.toInt_ofInt_of_le (by omega) (by omega)
    · simp
  · rintro rfl
    have := i.le_toInt
    have := i.toInt_lt
    rw [if_pos ⟨by omega, by omega⟩, Int64.ofInt_toInt]

theorem int64?_eq_none_iff {n : Int} :
    int64? n = none ↔ n < -0x8000000000000000 ∨ 0x8000000000000000 ≤ n := by
  unfold int64?
  split
  · simp only [reduceCtorEq, false_iff]
    omega
  · simp only [true_iff]
    omega

/-- The position that a 64-bit integer names, if it is not negative. -/
def position? (i : Int64) : Option Nat :=
  if 0 ≤ i.toInt then some i.toInt.toNat else none

end Stencil
