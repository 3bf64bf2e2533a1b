import Stencil.Expr.Eval

/-! Calculations with whole numbers are exact.

A `Calculation` is an expression of whole numbers, and its exact value may be of any size. It is
evaluated step by step, operands first and from left to right (`Calculation.steps`). Each step finds the
exact values of its operands or is not come to; it is at fault if it divides by zero or if its exact
result does not fit 64 bits. So an evaluation gives the exact value, if no step is at fault, and otherwise
the error of the first one that is (`Calculation.exact_or_first_fault`). -/
namespace Stencil

/-- An operator between whole numbers. -/
inductive Arithmetic where
  | add
  | subtract
  | multiply
  | divide
  | remainder
  deriving DecidableEq, Repr

inductive Calculation where
  | number (i : Int64)
  | negate (operand : Calculation)
  | combine (op : Arithmetic) (left right : Calculation)

namespace Arithmetic

def op : Arithmetic → BinaryOp
  | add => .add
  | subtract => .subtract
  | multiply => .multiply
  | divide => .divide
  | remainder => .remainder

/-- The exact result. Division rounds toward zero, and the remainder is what it leaves over. -/
def exact : Arithmetic → Int → Int → Int
  | add, a, b => a + b
  | subtract, a, b => a - b
  | multiply, a, b => a * b
  | divide, a, b => a.tdiv b
  | remainder, a, b => a.tmod b

/-- Whether the right operand divides. -/
def divides : Arithmetic → Bool
  | divide | remainder => true
  | _ => false

/-- What has to fit: the result, and for a remainder also the quotient. -/
def results (op : Arithmetic) (a b : Int) : List Int :=
  match op with
  | remainder => [a.tdiv b, a.tmod b]
  | op => [op.exact a b]

end Arithmetic

/-- The number has 64 bits, one of them for its sign. -/
def Fits (n : Int) : Prop :=
  -0x8000000000000000 ≤ n ∧ n < 0x8000000000000000

instance (n : Int) : Decidable (Fits n) :=
  inferInstanceAs (Decidable (_ ∧ _))

namespace Calculation

/-- What a step can fail by. -/
inductive Fault where
  | zeroDivisor
  | overflow
  deriving DecidableEq, Repr

def Fault.error : Fault → EvalError
  | zeroDivisor => ⟨.divisionByZero, none⟩
  | overflow => .ofMisuse .overflow

def expr : Calculation → Expr
  | number i => .literal (.int i)
  | negate operand => .unary .negate operand.expr
  | combine op left right => .binary op.op left.expr right.expr

def value : Calculation → Int
  | number i => i.toInt
  | negate operand => -operand.value
  | combine op left right => op.exact left.value right.value

/-- The fault of an operator between two exact values. -/
def faultOf (op : Arithmetic) (a b : Int) : Option Fault :=
  if op.divides = true ∧ b = 0 then some .zeroDivisor
  else if ∀ n ∈ op.results a b, Fits n then none
  else some .overflow

/-- The fault of the last step of a calculation. -/
def fault? : Calculation → Option Fault
  | number _ => none
  | negate operand => if Fits (-operand.value) then none else some .overflow
  | combine op left right => faultOf op left.value right.value

def steps : Calculation → List Calculation
  | number i => [number i]
  | negate operand => operand.steps ++ [negate operand]
  | combine op left right => left.steps ++ right.steps ++ [combine op left right]

/-- The outcome that an exact value calls for, unless there is a fault. -/
def Outcome (fault? : Option Fault) (value : Int) (result : Eval Value) : Prop :=
  match fault? with
  | none => ∃ i : Int64, i.toInt = value ∧ result = .ok (.int i)
  | some fault => result = .error fault.error

end Calculation

/-! ### One step -/

theorem fits_toInt (i : Int64) : Fits i.toInt := by
  have := i.le_toInt
  have := i.toInt_lt
  exact ⟨by omega, by omega⟩

theorem int64?_of_fits {n : Int} (h : Fits n) : ∃ i : Int64, i.toInt = n ∧ int64? n = some i := by
  cases hi : int64? n with
  | some i => exact ⟨i, int64?_eq_some_iff.1 hi, rfl⟩
  | none =>
    have := int64?_eq_none_iff.1 hi
    obtain ⟨_, _⟩ := h
    omega

theorem int64?_of_not_fits {n : Int} (h : ¬Fits n) : int64? n = none := by
  rw [int64?_eq_none_iff]
  unfold Fits at h
  omega

namespace Calculation

/-- Nothing is brought back to 64 bits that does not fit them. -/
theorem outcome_ofExact (n : Int) :
    Outcome (if Fits n then none else some .overflow) n (Value.ofExact n) := by
  by_cases h : Fits n
  · obtain ⟨i, hi, hn⟩ := int64?_of_fits h
    rw [if_pos h]
    exact ⟨i, hi, by rw [Value.ofExact, hn]⟩
  · rw [if_neg h, Value.ofExact, int64?_of_not_fits h]
    rfl

/-- An operator that does not divide by zero is at fault just if a result does not fit. -/
theorem outcome_of_results {op : Arithmetic} {a b : Int} (hd : ¬(op.divides = true ∧ b = 0))
    (hr : (∀ n ∈ op.results a b, Fits n) ↔ Fits (op.exact a b)) :
    Outcome (faultOf op a b) (op.exact a b) (Value.ofExact (op.exact a b)) := by
  have h := outcome_ofExact (op.exact a b)
  simp only [← hr] at h
  rwa [faultOf, if_neg hd]

/-- A remainder lies between zero and the dividend. -/
theorem tmod_between (a b : Int) :
    (0 ≤ a → 0 ≤ a.tmod b ∧ a.tmod b ≤ a) ∧ (a ≤ 0 → a ≤ a.tmod b ∧ a.tmod b ≤ 0) := by
  have habs : (a.tmod b).natAbs ≤ a.natAbs := by
    rw [Int.natAbs_tmod]
    exact Nat.mod_le _ _
  constructor
  · intro ha
    have := Int.tmod_nonneg b ha
    omega
  · intro ha
    have hneg := Int.tmod_nonneg b (Int.neg_nonneg_of_nonpos ha)
    rw [Int.neg_tmod] at hneg
    omega

theorem fits_tmod {a : Int} (h : Fits a) (b : Int) : Fits (a.tmod b) := by
  have hbetween := tmod_between a b
  unfold Fits at h ⊢
  omega

/-- **One operator** gives its exact result, or the error of its fault. -/
theorem outcome_applyBinary (op : Arithmetic) (i j : Int64) :
    Outcome (faultOf op i.toInt j.toInt) (op.exact i.toInt j.toInt)
      (Expr.applyBinary op.op (.int i) (.int j)) := by
  by_cases hd : op.divides = true ∧ j.toInt = 0
  · rw [faultOf, if_pos hd]
    cases op with
    | divide | remainder => simp [Outcome, Arithmetic.op, Expr.applyBinary, Value.divide, Value.remainder,
        Value.combine, hd.2, Fault.error]
    | _ => simp [Arithmetic.divides] at hd
  · cases op with
    | add | subtract | multiply => exact outcome_of_results hd (by simp [Arithmetic.results])
    | divide =>
      have hj : j.toInt ≠ 0 := fun hj => hd ⟨rfl, hj⟩
      have hdiv : Expr.applyBinary .divide (.int i) (.int j) = Value.ofExact (i.toInt.tdiv j.toInt) := by
        simp [Expr.applyBinary, Value.divide, Value.combine, hj]
      show Outcome _ _ (Expr.applyBinary .divide _ _)
      rw [hdiv]
      exact outcome_of_results hd (by simp [Arithmetic.results])
    | remainder =>
      have hj : j.toInt ≠ 0 := fun hj => hd ⟨rfl, hj⟩
      have hfits := fits_tmod (fits_toInt i) j.toInt
      show Outcome _ _ (Expr.applyBinary .remainder _ _)
      by_cases hq : Fits (i.toInt.tdiv j.toInt)
      · obtain ⟨q, -, hq'⟩ := int64?_of_fits hq
        have hrem : Expr.applyBinary .remainder (.int i) (.int j) =
            Value.ofExact (i.toInt.tmod j.toInt) := by
          simp [Expr.applyBinary, Value.remainder, Value.combine, hj, hq']
        rw [hrem]
        exact outcome_of_results hd (by simp [Arithmetic.results, Arithmetic.exact, hq])
      · rw [faultOf, if_neg hd, if_neg (by simp [Arithmetic.results, hq])]
        simp [Outcome, Expr.applyBinary, Value.remainder, Value.combine, hj, int64?_of_not_fits hq,
          Fault.error]

/-! ### All steps -/

variable {param : String} {vars : Variables}

/-- What is made of a value is not made where there is a fault. -/
theorem Outcome.bind {first last : Option Fault} {n m : Int} {x : Eval Value} {f : Value → Eval Value}
    (h : Outcome first n x) (hf : ∀ i : Int64, i.toInt = n → Outcome last m (f (.int i))) :
    Outcome (first.or last) m (x >>= f) := by
  cases first with
  | none =>
    obtain ⟨i, hi, rfl⟩ := h
    exact hf i hi
  | some fault =>
    obtain rfl : x = .error fault.error := h
    rfl

/-- **A calculation gives its exact value**, or the error of the first step that is at fault. -/
theorem outcome_eval (c : Calculation) (param : String) (vars : Variables) :
    Outcome (c.steps.findSome? fault?) c.value (c.expr.eval param vars) := by
  induction c with
  | number i => exact ⟨i, rfl, by simp [expr, Expr.eval]⟩
  | negate operand ih =>
    simp only [steps, List.findSome?_append, expr, Expr.eval]
    refine ih.bind fun i hi => ?_
    have h := outcome_ofExact (-i.toInt)
    simpa [fault?, value, hi, Expr.applyUnary, Value.negate] using h
  | combine op left right ihl ihr =>
    have heval : (combine op left right).expr.eval param vars = (do
        let a ← left.expr.eval param vars
        let b ← right.expr.eval param vars
        Expr.applyBinary op.op a b) := by
      cases op <;> simp only [expr, Arithmetic.op, Expr.eval]
    rw [heval]
    simp only [steps, List.findSome?_append, List.append_assoc]
    refine ihl.bind fun i hi => ihr.bind fun j hj => ?_
    have h := outcome_applyBinary op i j
    simpa [fault?, value, hi, hj] using h

/-- It gives a number just if no step is at fault, and then the exact value. -/
theorem eval_eq_ok_iff (c : Calculation) (n : Int64) :
    c.expr.eval param vars = .ok (.int n) ↔
      (∀ step ∈ c.steps, step.fault? = none) ∧ n.toInt = c.value := by
  have h := c.outcome_eval param vars
  rw [← List.findSome?_eq_none_iff]
  cases hf : c.steps.findSome? fault? with
  | none =>
    rw [hf] at h
    obtain ⟨i, hi, heval⟩ := h
    simp [heval, ← hi, ← Int64.toInt_inj, eq_comm]
  | some fault =>
    rw [hf] at h
    have heval : c.expr.eval param vars = .error fault.error := h
    simp [heval]

/-- Without a fault there is a number. -/
theorem exists_eval {c : Calculation} (h : ∀ step ∈ c.steps, step.fault? = none) (param : String)
    (vars : Variables) :
    ∃ i : Int64, i.toInt = c.value ∧ c.expr.eval param vars = .ok (.int i) := by
  have hout := c.outcome_eval param vars
  rwa [List.findSome?_eq_none_iff.2 h] at hout

/-! ### Quotient and remainder -/

/-- The quotient times the divisor, and the remainder added to that. -/
def recombined (left right : Calculation) : Calculation :=
  .combine .add (.combine .multiply (.combine .divide left right) right) (.combine .remainder left right)

theorem forall_steps_combine {op : Arithmetic} {left right : Calculation} :
    (∀ step ∈ (combine op left right).steps, step.fault? = none) ↔
      (∀ step ∈ left.steps, step.fault? = none) ∧ (∀ step ∈ right.steps, step.fault? = none) ∧
        faultOf op left.value right.value = none := by
  simp only [steps, List.forall_mem_append, List.forall_mem_singleton, and_assoc]
  exact Iff.rfl

theorem faultOf_eq_none_iff {op : Arithmetic} {a b : Int} :
    faultOf op a b = none ↔ ¬(op.divides = true ∧ b = 0) ∧ ∀ n ∈ op.results a b, Fits n := by
  unfold faultOf
  split <;> simp_all

/-- **A quotient and its remainder make up the dividend** again, and no step on the way is at fault. -/
theorem eval_recombined {left right : Calculation} {q m : Int64}
    (hq : (combine .divide left right).expr.eval param vars = .ok (.int q))
    (hm : (combine .remainder left right).expr.eval param vars = .ok (.int m)) :
    ∃ i j : Int64, left.expr.eval param vars = .ok (.int i) ∧
      right.expr.eval param vars = .ok (.int j) ∧
      i.toInt = q.toInt * j.toInt + m.toInt ∧ m.toInt.natAbs < j.toInt.natAbs ∧
      (0 ≤ i.toInt → 0 ≤ m.toInt) ∧ (i.toInt ≤ 0 → m.toInt ≤ 0) ∧
      (recombined left right).expr.eval param vars = .ok (.int i) := by
  obtain ⟨hqsteps, hqvalue⟩ := (eval_eq_ok_iff _ q).1 hq
  obtain ⟨hmsteps, hmvalue⟩ := (eval_eq_ok_iff _ m).1 hm
  obtain ⟨hleft, hright, hdivide⟩ := forall_steps_combine.1 hqsteps
  obtain ⟨i, hi, hileft⟩ := exists_eval hleft param vars
  obtain ⟨j, hj, hjright⟩ := exists_eval hright param vars
  have hqdiv : q.toInt = i.toInt.tdiv j.toInt := by rw [hqvalue, hi, hj]; rfl
  have hmmod : m.toInt = i.toInt.tmod j.toInt := by rw [hmvalue, hi, hj]; rfl
  have hzero : j.toInt ≠ 0 := fun h => (faultOf_eq_none_iff.1 hdivide).1 ⟨rfl, hj ▸ h⟩
  have hsum : q.toInt * j.toInt + m.toInt = i.toInt := by
    rw [hqdiv, hmmod]
    exact Int.tdiv_mul_add_tmod i.toInt j.toInt
  obtain ⟨hpos, hneg⟩ := tmod_between i.toInt j.toInt
  rw [← hmmod] at hpos hneg
  refine ⟨i, j, hileft, hjright, hsum.symm, ?_, fun h => (hpos h).1, fun h => (hneg h).2, ?_⟩
  · rw [hmmod, Int.natAbs_tmod]
    exact Nat.mod_lt _ (Int.natAbs_pos.2 hzero)
  · -- The product lies between zero and the dividend, as the remainder does.
    have hfits := fits_toInt i
    have hproduct : Fits (q.toInt * j.toInt) := by
      unfold Fits at hfits ⊢
      omega
    have hmultiply : faultOf .multiply (combine .divide left right).value right.value = none := by
      rw [faultOf_eq_none_iff, ← hqvalue, ← hj]
      simpa [Arithmetic.divides, Arithmetic.results, Arithmetic.exact] using hproduct
    have hvalue : (combine .multiply (combine .divide left right) right).value +
        (combine .remainder left right).value = i.toInt := by
      rw [← hmvalue, ← hsum, hqvalue, hj]
      rfl
    have hadd : faultOf .add (combine .multiply (combine .divide left right) right).value
        (combine .remainder left right).value = none := by
      rw [faultOf_eq_none_iff]
      simpa [Arithmetic.divides, Arithmetic.results, Arithmetic.exact, hvalue] using hfits
    exact (eval_eq_ok_iff _ i).2 ⟨forall_steps_combine.2
      ⟨forall_steps_combine.2 ⟨hqsteps, hright, hmultiply⟩, hmsteps, hadd⟩, hvalue.symm⟩

/-- **Calculations with whole numbers are exact or fail.** If no step is at fault, an evaluation gives the
exact value; otherwise it fails with the error of the first step that is. A quotient and its remainder,
where there are both, make up the dividend; the remainder is smaller than the divisor, and has the sign
of the dividend. -/
theorem exact_or_first_fault (c : Calculation) (param : String) (vars : Variables) :
    ((∀ step ∈ c.steps, step.fault? = none) →
      ∃ i : Int64, i.toInt = c.value ∧ c.expr.eval param vars = .ok (.int i)) ∧
    (∀ before step behind fault, c.steps = before ++ step :: behind →
      (∀ earlier ∈ before, earlier.fault? = none) → step.fault? = some fault →
      c.expr.eval param vars = .error fault.error) ∧
    (∀ (left right : Calculation) (q m : Int64),
      (combine .divide left right).expr.eval param vars = .ok (.int q) →
      (combine .remainder left right).expr.eval param vars = .ok (.int m) →
      ∃ i j : Int64, left.expr.eval param vars = .ok (.int i) ∧
        right.expr.eval param vars = .ok (.int j) ∧
        i.toInt = q.toInt * j.toInt + m.toInt ∧ m.toInt.natAbs < j.toInt.natAbs ∧
        (0 ≤ i.toInt → 0 ≤ m.toInt) ∧ (i.toInt ≤ 0 → m.toInt ≤ 0) ∧
        (recombined left right).expr.eval param vars = .ok (.int i)) ∧
    Fault.zeroDivisor.error.message = "division by zero" ∧
    Fault.overflow.error.message = "invalid operation: integer overflow" := by
  refine ⟨fun h => exists_eval h param vars, ?_, fun left right q m => eval_recombined, rfl, rfl⟩
  intro before step behind fault hsteps hbefore hstep
  have hfirst : c.steps.findSome? fault? = some fault := by
    rw [hsteps, List.findSome?_append, List.findSome?_eq_none_iff.2 hbefore, List.findSome?_cons, hstep]
    rfl
  have h := c.outcome_eval param vars
  rwa [hfirst] at h

/-- The smallest number has no counterpart: its quotient by -1 does not fit, so it has no remainder either.
And of two operands that are at fault the left one is reported. -/
example :
    let least : Calculation := .number (-0x8000000000000000)
    let remainder := combine .remainder least (.number (-1))
    let quotient := combine .divide (.number 1) (.number 0)
    (combine .add remainder quotient).steps.findSome? fault? = some .overflow ∧
      (combine .add quotient remainder).steps.findSome? fault? = some .zeroDivisor :=
  ⟨by decide, by decide⟩

end Calculation

end Stencil
