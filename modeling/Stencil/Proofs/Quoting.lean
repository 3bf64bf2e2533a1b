import Stencil.Delimiter.Quoting

/-! What stands in quotes.

`Quoting.mask` puts a quote in place of every character that stands in quotes, so that a piece of text
without quotes stands somewhere outside them just where it stands in the masked text. All that reads a
text with quotes in it is spoken of in these terms. A search finds a piece if it stands somewhere outside
quotes (`isSome_findFrom_iff`). -/
namespace Stencil.Quoting
variable {q : Quoting} {text piece front : List Char}

/-- Where a reader stands after a text. -/
def after (q : Quoting) (text : List Char) : Quoting :=
  text.foldl next q

/-- A character as it is seen, which is not at all in quotes. -/
def shown (q : Quoting) (c : Char) : Char :=
  if q = outside then c else mark

/-- The text as it is seen. -/
def mask : Quoting → List Char → List Char
  | _, [] => []
  | q, c :: rest => q.shown c :: mask (q.next c) rest

/-- The text ends outside quotes, where it began. -/
def Balanced (text : List Char) : Prop :=
  outside.after text = outside

theorem after_append (q : Quoting) (text more : List Char) :
    q.after (text ++ more) = (q.after text).after more :=
  List.foldl_append

theorem mask_append (q : Quoting) (text more : List Char) :
    q.mask (text ++ more) = q.mask text ++ (q.after text).mask more := by
  induction text generalizing q with
  | nil => rfl
  | cons c rest ih => exact congrArg (q.shown c :: ·) (ih (q.next c))

theorem shown_outside (c : Char) : outside.shown c = c := rfl

/-- Nothing is hidden in a text without quotes. -/
theorem of_notMem_mark (h : mark ∉ text) : Balanced text ∧ outside.mask text = text := by
  induction text with
  | nil => exact ⟨rfl, rfl⟩
  | cons c rest ih =>
    have hc : mark ≠ c := List.ne_of_not_mem_cons h
    obtain ⟨hbalanced, hmask⟩ := ih (List.not_mem_of_not_mem_cons h)
    have hnext : outside.next c = outside := if_neg (Ne.symm hc)
    refine ⟨?_, ?_⟩
    · show (outside.next c).after rest = outside
      rw [hnext]
      exact hbalanced
    · show outside.shown c :: (outside.next c).mask rest = c :: rest
      rw [hnext, hmask, shown_outside]

theorem Balanced.append (h : Balanced text) (h' : Balanced piece) : Balanced (text ++ piece) := by
  unfold Balanced
  rw [after_append, h, h']

theorem Balanced.mask_append (h : Balanced text) (more : List Char) :
    outside.mask (text ++ more) = outside.mask text ++ outside.mask more := by
  rw [Quoting.mask_append, h]

/-! ### Finding a piece -/

/-- A piece is not found in a text that it does not begin anywhere. -/
theorem find?_append (hm : mark ∉ front) (hp : ∀ c ∈ front, piece.head? ≠ some c) (hn : piece ≠ [])
    (rest : List Char) : find? piece (front ++ rest) = (find? piece rest).map (· + front.length) := by
  unfold find?
  induction front with
  | nil => exact Option.map_id'.symm
  | cons c front ih =>
    have hc : mark ≠ c := List.ne_of_not_mem_cons hm
    obtain ⟨hhead, hp⟩ := List.forall_mem_cons.1 hp
    have hno : piece.isPrefixOf (c :: (front ++ rest)) = false := by
      cases piece with
      | nil => exact absurd rfl hn
      | cons d piece =>
        have hd : (d == c) = false := beq_eq_false_iff_ne.2 fun hd => hhead (congrArg some hd)
        show (d == c && _) = false
        rw [hd, Bool.false_and]
    have hnext : outside.next c = outside := if_neg (Ne.symm hc)
    rw [List.cons_append, findFrom, hno, hnext, ih (List.not_mem_of_not_mem_cons hm) hp, Option.map_map]
    rw [if_neg fun h => Bool.false_ne_true h.2.2]
    rfl

/-- A piece is not found in a text in which its first character is not seen. -/
theorem findFrom_eq_none {sign : Char} (h : sign ∉ q.mask text) :
    findFrom (sign :: piece) q text = none := by
  induction text generalizing q with
  | nil => rfl
  | cons c rest ih =>
    have hshown : sign ≠ q.shown c := List.ne_of_not_mem_cons h
    rw [findFrom, if_neg, ih (List.not_mem_of_not_mem_cons h)]
    · rfl
    · rintro ⟨rfl, -, hp⟩
      obtain ⟨more, hmore⟩ := List.isPrefixOf_iff_prefix.1 hp
      exact hshown (List.head_eq_of_cons_eq hmore)

/-- A piece is found where it stands. -/
theorem find?_of_isPrefix (hp : piece <+: text) (hn : piece ≠ []) (hm : piece.head? ≠ some mark) :
    find? piece text = some 0 := by
  obtain ⟨rest, rfl⟩ := hp
  cases piece with
  | nil => exact absurd rfl hn
  | cons c piece =>
    have hc : c ≠ mark := fun hc => hm (congrArg some hc)
    have hprefix : (c :: piece).isPrefixOf (c :: (piece ++ rest)) = true :=
      List.isPrefixOf_iff_prefix.2 (List.prefix_append (c :: piece) rest)
    exact if_pos ⟨rfl, hc, hprefix⟩

/-- The piece stands at that offset of the text, outside quotes. -/
def StandsAt (piece text : List Char) (n : Nat) : Prop :=
  outside.after (text.take n) = outside ∧ piece <+: text.drop n

/-- A search finds a piece that stands somewhere. -/
theorem isSome_findFrom_iff (hn : piece ≠ []) (hm : piece.head? ≠ some mark) (q : Quoting) :
    (findFrom piece q text).isSome = true ↔
      ∃ n, q.after (text.take n) = outside ∧ piece <+: text.drop n := by
  induction text generalizing q with
  | nil =>
    refine ⟨nofun, fun ⟨n, _, hp⟩ => absurd ?_ hn⟩
    rw [List.drop_nil] at hp
    exact List.prefix_nil.1 hp
  | cons c rest ih =>
    unfold findFrom
    split
    · next h => exact ⟨fun _ => ⟨0, h.1, List.isPrefixOf_iff_prefix.1 h.2.2⟩, fun _ => rfl⟩
    · next h =>
      rw [Option.isSome_map, ih]
      constructor
      · rintro ⟨n, ha, hp⟩
        exact ⟨n + 1, ha, hp⟩
      · rintro ⟨n, ha, hp⟩
        cases n with
        | zero =>
          refine absurd ⟨ha, fun hc => hm ?_, List.isPrefixOf_iff_prefix.2 hp⟩ h
          obtain ⟨d, more, rfl⟩ := List.exists_cons_of_ne_nil hn
          exact congrArg some ((List.cons_prefix_cons.1 hp).1.trans hc)
        | succ n => exact ⟨n, ha, hp⟩

end Stencil.Quoting
