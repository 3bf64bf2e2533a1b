/-! What is bound to names: each name stands once, in the place where it came first. -/
namespace Stencil.Bindings
variable {α β : Type}

/-- Bind a name, in its place if it has one, and else behind all others. -/
def put (name : String) (value : α) : List (String × α) → List (String × α)
  | [] => [(name, value)]
  | (n, v) :: rest => if n = name then (name, value) :: rest else (n, v) :: put name value rest

/-- Bind one name after the other; what comes later counts. -/
def ofList (bindings : List (String × α)) : List (String × α) :=
  bindings.foldl (fun made binding => put binding.1 binding.2 made) []

variable {name other : String}

theorem lookup_cons_of_ne (h : other ≠ name) (value : α) (rest : List (String × α)) :
    ((name, value) :: rest).lookup other = rest.lookup other := by
  rw [List.lookup_cons, beq_eq_false_iff_ne.2 h]

/-- A name that is bound has its value, and every other name has the value that it had. -/
theorem lookup_put (name : String) (value : α) (bindings : List (String × α)) (other : String) :
    (put name value bindings).lookup other =
      if other = name then some value else bindings.lookup other := by
  induction bindings with
  | nil =>
    by_cases ho : other = name
    · simp [put, ho]
    · simp [put, ho, lookup_cons_of_ne]
  | cons binding rest ih =>
    obtain ⟨n, v⟩ := binding
    by_cases hn : n = name
    · by_cases ho : other = name
      · simp [put, hn, ho]
      · simp [put, hn, ho, lookup_cons_of_ne]
    · by_cases ho : other = n
      · simp [put, hn, ho]
      · simp [put, hn, ho, lookup_cons_of_ne, ih]

/-- A name that is dropped has no value, and every other name has the value that it had. -/
theorem lookup_filter (name : String) (bindings : List (String × α)) (other : String) :
    (bindings.filter fun binding => binding.1 != name).lookup other =
      if other = name then none else bindings.lookup other := by
  induction bindings with
  | nil => simp
  | cons binding rest ih =>
    obtain ⟨n, v⟩ := binding
    by_cases hn : n = name
    · rw [List.filter_cons_of_neg (by simpa using hn), ih]
      by_cases ho : other = name
      · simp [ho]
      · simp [hn, ho, lookup_cons_of_ne]
    · rw [List.filter_cons_of_pos (by simpa using hn)]
      by_cases ho : other = n
      · simp [hn, ho]
      · simp [ho, lookup_cons_of_ne, ih]

/-- Of a name that comes again the last value counts. -/
theorem lookup_ofList (bindings : List (String × α)) (name : String) :
    (ofList bindings).lookup name = bindings.reverse.lookup name := by
  suffices ∀ made : List (String × α),
      (bindings.foldl (fun made binding => put binding.1 binding.2 made) made).lookup name =
        (bindings.reverse.lookup name).or (made.lookup name) by
    rw [ofList, this, List.lookup_nil, Option.or_none]
  induction bindings with
  | nil => exact fun _ => rfl
  | cons binding rest ih =>
    intro made
    obtain ⟨n, v⟩ := binding
    rw [List.foldl_cons, ih, lookup_put, List.reverse_cons, List.lookup_append, Option.or_assoc]
    by_cases hn : name = n
    · simp [hn]
    · simp [hn, lookup_cons_of_ne]

theorem lookup_map (f : α → β) (bindings : List (String × α)) (name : String) :
    (bindings.map fun binding => (binding.1, f binding.2)).lookup name =
      (bindings.lookup name).map f := by
  induction bindings with
  | nil => rfl
  | cons binding rest ih =>
    obtain ⟨n, v⟩ := binding
    by_cases hn : name = n
    · simp [hn]
    · simp [lookup_cons_of_ne hn, ih]

end Stencil.Bindings
