import Stencil.Expr.Eval

/-! Equality of lists.

Where a whole number is compared with a double the two are equal if they have the same magnitude. Where
such a pair stands in two lists that are compared, it makes them differ, whatever the magnitudes. That is
the only difference between the two comparisons (`Value.same_iff`): lists are equal just if they have the
same length, their elements are equal in pairs, and in no pair a whole number stands beside a double
(`Value.equal_list_iff`). -/
namespace Stencil.Value

/-- One of the two is a whole number and the other a double. -/
def mixed : Value → Value → Bool
  | int _, float _ => true
  | float _, int _ => true
  | _, _ => false

mutual

/-- Equality that compares numbers by their magnitude wherever they stand, be it in lists of lists. -/
def alike : Value → Value → Bool
  | list as, list bs => alikeItems as bs
  | a, b => a.equal b

def alikeItems : List Value → List Value → Bool
  | [], [] => true
  | a :: as, b :: bs => a.alike b && alikeItems as bs
  | _, _ => false

end

mutual

/-- At the same place in both, be it in lists of lists, a whole number stands beside a double. -/
def mixedWithin : Value → Value → Bool
  | list as, list bs => mixedAmong as bs
  | a, b => a.mixed b

def mixedAmong : List Value → List Value → Bool
  | a :: as, b :: bs => a.mixedWithin b || mixedAmong as bs
  | _, _ => false

end

/-- Values that are built alike are equal, and only a whole number equals a double as well. -/
theorem same_iff (a b : Value) : a.same b = true ↔ a.equal b = true ∧ a.mixed b = false := by
  cases a <;> cases b <;> simp [same, equal, mixed]

/-- The lists have the same length, and any two elements at the same place go together. -/
def Paired (together : Value → Value → Prop) (as bs : List Value) : Prop :=
  as.length = bs.length ∧ ∀ pair ∈ as.zip bs, together pair.1 pair.2

/-- The elements of lists that are built alike are equal in pairs, and none of these is mixed. -/
theorem sameItems_iff (as bs : List Value) :
    sameItems as bs = true ↔ Paired (fun a b => a.equal b = true ∧ a.mixed b = false) as bs := by
  unfold Paired
  induction as generalizing bs with
  | nil => cases bs <;> simp [sameItems]
  | cons a as ih =>
    cases bs with
    | nil => simp [sameItems]
    | cons b bs => simp [sameItems, same_iff, ih, and_left_comm]

mutual

/-- At any depth only a whole number beside a double can make values differ that are equal in all
their numbers. -/
theorem same_iff_alike (a b : Value) :
    a.same b = true ↔ a.alike b = true ∧ a.mixedWithin b = false := by
  cases a with
  | list as =>
    cases b with
    | list bs => simpa [same, alike, mixedWithin] using sameItems_iff_alike as bs
    | _ => simp [alike, mixedWithin, same_iff]
  | _ => cases b <;> simp [alike, mixedWithin, same_iff]

theorem sameItems_iff_alike : (as bs : List Value) →
    (sameItems as bs = true ↔ alikeItems as bs = true ∧ mixedAmong as bs = false)
  | [], [] => by simp [sameItems, alikeItems, mixedAmong]
  | [], b :: bs => by simp [sameItems, alikeItems]
  | a :: as, [] => by simp [sameItems, alikeItems]
  | a :: as, b :: bs => by
    simp [sameItems, alikeItems, mixedAmong, same_iff_alike a b, sameItems_iff_alike as bs,
      and_assoc, and_left_comm]

end

/-- **Lists are equal if their elements are in pairs**, but for whole numbers beside doubles, which
differ in lists even where they are equal outside of them; so it is at any depth, for `==`, and for lists
that are looked for in a list. -/
theorem equal_list_iff (as bs : List Value) :
    let together : Value → Value → Prop := fun a b => a.equal b = true ∧ a.mixed b = false
    ((list as).equal (list bs) = true ↔ Paired together as bs) ∧
    ((list as).equal (list bs) = true ↔
      (list as).alike (list bs) = true ∧ (list as).mixedWithin (list bs) = false) ∧
    (Expr.applyBinary .equal (list as) (list bs) = .ok (.bool true) ↔ Paired together as bs) ∧
    ∀ lists : List (List Value),
      Expr.Library.callMethod (list (lists.map list)) "Contains" [list bs] = .ok (.bool true) ↔
        ∃ items ∈ lists, Paired together items bs := by
  intro together
  have hsame : ∀ items, (list items).equal (list bs) = (list items).same (list bs) := fun _ => rfl
  have hpaired : ∀ items, (list items).equal (list bs) = true ↔ Paired together items bs := by
    intro items
    rw [hsame, same]
    exact sameItems_iff items bs
  refine ⟨hpaired as, hsame as ▸ same_iff_alike (list as) (list bs), ?_, fun lists => ?_⟩
  · simp [Expr.applyBinary, hpaired]
  · simp [Expr.Library.callMethod, Expr.Library.listMethod, Expr.Library.one, Except.map, hpaired]

/-- So lists can differ whose elements are equal in pairs. -/
theorem not_equal_of_mixed :
    ¬∀ as bs : List Value, (list as).equal (list bs) = true ↔
      Paired (fun a b => a.equal b = true) as bs := by
  intro h
  have hpaired : Paired (fun a b => a.equal b = true) [int 1] [float 1.0] :=
    ⟨rfl, List.forall_mem_singleton.2 rfl⟩
  have hequal := (h [int 1] [float 1.0]).2 hpaired
  exact absurd hequal (by decide)

end Stencil.Value
