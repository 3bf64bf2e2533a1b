import Stencil.Token.Record

/-! Tokens and their records.

The parts of a token's record are filled in one after the other, while the token itself is made at once
from what it says. Part by part both come to the same: the record is that of the token, and where there is
no token the fault is the same one (`Token.Grammar.fill_eq`). -/
namespace Stencil.Token.Grammar
variable {g : Grammar} {id length : Nat} {text rest : List Char}

/-- The record of what was read, or its fault under the number of the token. -/
def recorded (id length : Nat) : Except TokenFault Directive → Except RenderError Record
  | .ok directive => .ok (record ⟨id, directive, length⟩)
  | .error fault => .error (.token id fault)

theorem fillName_eq (g : Grammar) (r : Record) (text : List Char) :
    g.fillName r text = match g.name text with
      | .ok name => .ok { r with name }
      | .error fault => r.fault fault := by
  unfold fillName Grammar.name
  dsimp only
  split <;> rfl

/-- The record of a token with a condition is filled in with its subject and how it is used. -/
theorem fillCondition_eq (kind : Kind) :
    g.fillCondition { id, kind, length } rest = match g.condition kind rest with
      | .ok condition => .ok
          { id, kind, length
            name := condition.subject
            mode := condition.mode
            expression := condition.expression? }
      | .error fault => .error (.token id fault) := by
  fun_cases g.condition kind rest with
  | case1 => rfl
  | case2 rest negated he =>
    simp only [fillCondition, negated, he]
    rfl
  | case3 rest negated he =>
    rw [Bool.not_eq_true] at he
    simp only [fillCondition, negated, he, fillName_eq]
    cases g.name (Text.trim rest) <;> rfl
  | case4 _ hempty hmark he =>
    simp only [fillCondition, he]
    rfl
  | case5 _ hempty hmark he =>
    rw [Bool.not_eq_true] at he
    simp only [fillCondition, he, fillName_eq]
    cases g.name rest <;> rfl

theorem fillSequence_eq :
    g.fillSequence { id, kind := .eachOpen, length } rest = recorded id length (g.sequence rest) := by
  unfold fillSequence sequence
  cases Quoting.find? colon rest with
  | none => rfl
  | some n =>
    dsimp only
    split
    · rw [fillName_eq]
      cases g.name (Text.trim (rest.take n)) <;> rfl
    · rfl

theorem fillDefinition_eq (n : Nat) :
    g.fillDefinition { id, kind := .define, length } text n =
      recorded id length (g.definition text n) := by
  unfold fillDefinition definition
  rw [fillName_eq]
  cases g.name (Text.trim (text.take n)) with
  | error fault => rfl
  | ok name =>
    unfold meaning
    dsimp only [Bind.bind, Except.bind]
    cases CloseScan.unwrap? g.left g.right (Text.trim (text.drop (n + 1))) with
    | some inner =>
      dsimp only
      cases isExpression (Text.trim inner) <;> rfl
    | none =>
      dsimp only
      cases isExpression (Text.trim (text.drop (n + 1))) <;> rfl

/-- A directive that is made of a condition has this condition's record. -/
theorem recorded_map {kind : Kind} {make : Condition → Directive}
    (h : ∀ condition, record ⟨id, make condition, length⟩ =
      { id, kind, length
        name := condition.subject
        mode := condition.mode
        expression := condition.expression? }) :
    recorded id length ((g.condition kind rest).map make) =
      g.fillCondition { id, kind, length } rest := by
  rw [fillCondition_eq]
  cases g.condition kind rest with
  | error fault => rfl
  | ok condition => exact congrArg Except.ok (h condition)

/-- A keyword that stands alone leaves the record as it was begun. -/
theorem recorded_alone {kind : Kind} {directive : Directive}
    (h : record ⟨id, directive, length⟩ = { id, kind, length }) :
    recorded id length (alone kind rest directive) =
      if rest.isEmpty then .ok { id, kind, length }
      else Record.fault { id, kind, length } (.unexpectedText kind (String.ofList rest)) := by
  unfold alone
  split
  · exact congrArg Except.ok h
  · rfl

theorem fillDirective_eq {word : String} {kind : Kind} (hk : Kind.ofKeyword? word = some kind) :
    g.fillDirective { id, kind, length } rest = recorded id length (g.directive kind rest) := by
  unfold Kind.ofKeyword? at hk
  split at hk <;> cases hk
  · exact (recorded_map fun _ => rfl).symm
  · exact (recorded_alone rfl).symm
  · exact (recorded_alone rfl).symm
  · exact (recorded_map fun _ => rfl).symm
  · exact (recorded_alone rfl).symm
  · exact fillSequence_eq
  · exact (recorded_alone rfl).symm

theorem fillValueOrDefinition_eq :
    g.fillValueOrDefinition id length text = recorded id length (g.valueOrDefinition text) := by
  unfold fillValueOrDefinition valueOrDefinition
  cases Quoting.find? colon text with
  | some n =>
    cases Quoting.find? arrow text with
    | some m =>
      dsimp only
      split
      · exact fillDefinition_eq n
      · rfl
    | none => exact fillDefinition_eq n
  | none =>
    cases Quoting.find? arrow text with
    | some m => rfl
    | none =>
      dsimp only
      rw [fillName_eq]
      cases g.name text <;> rfl

/-- **Filling in a record comes to the record of the token**, and fails as reading the token does. -/
theorem fill_eq (g : Grammar) (id : Nat) (raw : List Char) :
    g.fill id raw = (g.classify id raw).map record := by
  have hclassify : (g.classify id raw).map record = recorded id raw.length (g.read raw) := by
    unfold classify
    cases g.read raw <;> rfl
  rw [hclassify]
  unfold fill Grammar.read
  dsimp only
  split
  · rfl
  · cases hk : Kind.ofKeyword? (String.ofList (Text.lower (Text.firstWord (Text.trim raw)).1)) with
    | some kind => exact fillDirective_eq hk
    | none => exact fillValueOrDefinition_eq

end Stencil.Token.Grammar
