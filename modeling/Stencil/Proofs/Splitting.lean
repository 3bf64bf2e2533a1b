import Stencil.Expr.Library

/-! Splitting and joining.

Splitting a text and replacing in it are two scans that look for the same piece in the same places: both
pass over an occurrence before they look for the next one. So a text that is split and then joined is the
text with each separator replaced (`Text.join_split`), and nothing is lost where the separator is joined
with (`Text.replace_self`). No separator is left within a piece, because a piece ends where the leftmost
one begins (`Text.find?_of_mem_splitSkipping`). -/
namespace Stencil

namespace Text
variable {separator text piece : List Char}

theorem splitSkipping_ne_nil (separator : List Char) (skip : Nat) (text : List Char) :
    splitSkipping separator skip text ≠ [] := by
  fun_induction splitSkipping separator skip text <;> simp_all

/-- Where no separator begins, the first piece takes in the next character. -/
theorem splitSkipping_cons {c : Char} {rest : List Char}
    (h : ¬separator.isPrefixOf (c :: rest) = true) :
    ∃ first more, splitSkipping separator 0 rest = first :: more ∧
      splitSkipping separator 0 (c :: rest) = (c :: first) :: more := by
  cases hs : splitSkipping separator 0 rest with
  | nil => exact absurd hs (splitSkipping_ne_nil separator 0 rest)
  | cons first more => exact ⟨first, more, rfl, by simp [splitSkipping, h, hs]⟩

/-! ### Joining -/

theorem join_cons_of_ne_nil (between piece : List Char) {pieces : List (List Char)} (h : pieces ≠ []) :
    join between (piece :: pieces) = piece ++ between ++ join between pieces := by
  cases pieces with
  | nil => exact absurd rfl h
  | cons next more => rfl

theorem join_cons_cons (between : List Char) (c : Char) (piece : List Char)
    (pieces : List (List Char)) :
    join between ((c :: piece) :: pieces) = c :: join between (piece :: pieces) := by
  cases pieces <;> rfl

/-- The two scans go along with each other, also within an occurrence. -/
theorem join_splitSkipping (separator between : List Char) (skip : Nat) (text : List Char) :
    join between (splitSkipping separator skip text) =
      replaceSkipping separator between skip text := by
  induction text generalizing skip with
  | nil => cases skip <;> rfl
  | cons c rest ih =>
    cases skip with
    | succ skip => exact ih skip
    | zero =>
      by_cases h : separator.isPrefixOf (c :: rest) = true
      · simp [splitSkipping, replaceSkipping, h, join_cons_of_ne_nil, splitSkipping_ne_nil, ih]
      · obtain ⟨first, more, hrest, hcons⟩ := splitSkipping_cons h
        rw [hcons, join_cons_cons, ← hrest, ih]
        simp [replaceSkipping, h]

/-- **A text that is split and joined has its separators replaced.** -/
theorem join_split (separator between text : List Char) :
    join between (split separator text) = replace separator between text :=
  join_splitSkipping separator between 0 text

/-- What is replaced by itself stays, and what is left of an occurrence is passed over. -/
theorem replaceSkipping_self (hn : piece ≠ []) (skip : Nat) (text : List Char) :
    replaceSkipping piece piece skip text = text.drop skip := by
  induction text generalizing skip with
  | nil => cases skip <;> rfl
  | cons c rest ih =>
    cases skip with
    | succ skip => exact ih skip
    | zero =>
      by_cases h : piece.isPrefixOf (c :: rest) = true
      · obtain ⟨p, more, rfl⟩ := List.exists_cons_of_ne_nil hn
        obtain ⟨back, hback⟩ := List.isPrefixOf_iff_prefix.1 h
        obtain ⟨rfl, hrest⟩ := List.cons.inj hback
        have hdrop : rest.drop more.length = back := by simp [← hrest]
        simpa [replaceSkipping, h, ih, hdrop] using hrest
      · simpa [replaceSkipping, h] using ih 0

theorem replace_self (hn : piece ≠ []) (text : List Char) : replace piece piece text = text :=
  replaceSkipping_self hn 0 text

/-! ### Pieces -/

/-- The first piece is what the text begins with. -/
theorem prefix_of_splitSkipping {first : List Char} {more : List (List Char)}
    (h : splitSkipping separator 0 text = first :: more) : first <+: text := by
  induction text generalizing first more with
  | nil =>
    cases h
    exact List.prefix_rfl
  | cons c rest ih =>
    by_cases hp : separator.isPrefixOf (c :: rest) = true
    · rw [splitSkipping, if_pos hp] at h
      cases h
      exact List.nil_prefix
    · obtain ⟨first', more', hrest, hcons⟩ := splitSkipping_cons hp
      rw [hcons] at h
      cases h
      exact List.cons_prefix_cons.2 ⟨rfl, ih hrest⟩

theorem find?_nil (hn : separator ≠ []) : find? separator [] = none := by
  simp [find?, hn]

/-- **No piece has a separator in it**: it would begin one in the text, and the piece would end there. -/
theorem find?_of_mem_splitSkipping (hn : separator ≠ []) (skip : Nat) (text : List Char) :
    ∀ piece ∈ splitSkipping separator skip text, find? separator piece = none := by
  induction text generalizing skip with
  | nil => cases skip <;> simp [splitSkipping, find?_nil hn]
  | cons c rest ih =>
    cases skip with
    | succ skip => exact ih skip
    | zero =>
      by_cases h : separator.isPrefixOf (c :: rest) = true
      · simpa [splitSkipping, h, find?_nil hn] using ih (separator.length - 1)
      · obtain ⟨first, more, hrest, hcons⟩ := splitSkipping_cons h
        have hpieces := ih 0
        rw [hrest, List.forall_mem_cons] at hpieces
        have hfirst : ¬separator.isPrefixOf (c :: first) = true := by
          intro hp
          have hpre : c :: first <+: c :: rest :=
            List.cons_prefix_cons.2 ⟨rfl, prefix_of_splitSkipping hrest⟩
          exact h (List.isPrefixOf_iff_prefix.2 ((List.isPrefixOf_iff_prefix.1 hp).trans hpre))
        rw [hcons, List.forall_mem_cons]
        exact ⟨by simp [find?, hfirst, hpieces.1], hpieces.2⟩

/-- **A text is one piece just if the separator does not occur in it.** -/
theorem length_split_eq_one_iff (hn : separator ≠ []) (text : List Char) :
    (split separator text).length = 1 ↔ find? separator text = none := by
  unfold split
  induction text with
  | nil => simp [splitSkipping, find?_nil hn]
  | cons c rest ih =>
    by_cases h : separator.isPrefixOf (c :: rest) = true
    · simp [splitSkipping, find?, h, splitSkipping_ne_nil]
    · obtain ⟨first, more, hrest, hcons⟩ := splitSkipping_cons h
      rw [hrest] at ih
      simpa [hcons, find?, h] using ih

end Text

/-! ### The methods of texts -/

namespace Expr.Library
variable {s p : String}

theorem callMethod_split (hp : p ≠ "") (s : String) :
    callMethod (.str s) "Split" [.str p] =
      .ok (.list ((Text.split p.toList s.toList).map text)) := by
  simp [callMethod, textMethod, textArgument, argument, Value.display, Except.map, bind, Except.bind, hp]

theorem callMethod_replace (hp : p ≠ "") (s t : String) :
    callMethod (.str s) "Replace" [.str p, .str t] =
      .ok (text (Text.replace p.toList t.toList s.toList)) := by
  simp [callMethod, textMethod, textArgument, argument, Value.display, Except.map, bind, Except.bind, hp]

theorem callMethod_contains (s p : String) :
    callMethod (.str s) "Contains" [.str p] = .ok (.bool (Text.contains p.toList s.toList)) := by
  simp [callMethod, textMethod, textArgument, argument, Value.display, Except.map, bind, Except.bind,
    pure, Except.pure]

theorem callStatic_join (t : String) (pieces : List (List Char)) :
    callStatic "string" "Join" [.str t, .list (pieces.map text)] =
      some (.ok (text (Text.join t.toList pieces))) := by
  have hdisplay : (fun v : Value => v.display.toList) ∘ text = id := by
    funext cs
    simp [text, Value.display]
  simp [callStatic, textStatic, joinText, Value.display, hdisplay]

/-- **Splitting, joining and replacing fit together.** -/
theorem join_split_eq_replace (s t p : String) (hp : p ≠ "") :
    ∃ (pieces : List String) (replaced : String),
      callMethod (.str s) "Split" [.str p] = .ok (.list (pieces.map .str)) ∧
      callMethod (.str s) "Replace" [.str p, .str t] = .ok (.str replaced) ∧
      callStatic "string" "Join" [.str t, .list (pieces.map .str)] = some (.ok (.str replaced)) ∧
      callStatic "string" "Join" [.str p, .list (pieces.map .str)] = some (.ok (.str s)) ∧
      (∀ piece ∈ pieces, callMethod (.str piece) "Contains" [.str p] = .ok (.bool false)) ∧
      (pieces.length = 1 ↔ callMethod (.str s) "Contains" [.str p] = .ok (.bool false)) := by
  have hn : p.toList ≠ [] := by simpa using hp
  have hpieces : (((Text.split p.toList s.toList).map String.ofList).map Value.str) =
      (Text.split p.toList s.toList).map text := List.map_map
  refine ⟨(Text.split p.toList s.toList).map String.ofList,
    String.ofList (Text.replace p.toList t.toList s.toList), ?_, ?_, ?_, ?_, ?_, ?_⟩
  · rw [callMethod_split hp, hpieces]
  · exact callMethod_replace hp s t
  · rw [hpieces, callStatic_join, Text.join_split]
    rfl
  · rw [hpieces, callStatic_join, Text.join_split, Text.replace_self hn, text, String.ofList_toList]
  · simp only [List.forall_mem_map, callMethod_contains, String.toList_ofList, Text.contains]
    intro piece hpiece
    rw [Text.find?_of_mem_splitSkipping hn 0 s.toList piece hpiece]
    rfl
  · rw [List.length_map, Text.length_split_eq_one_iff hn, callMethod_contains, Text.contains]
    simp

/-- A separator that overlaps with itself, at both ends of the text and twice in a row. -/
theorem join_split_eq_replace_of_overlap :
    let pieces : List Value := [.str "", .str "", .str "ab", .str ""]
    "aa" ≠ "" ∧
      callMethod (.str "aaaaabaa") "Split" [.str "aa"] = .ok (.list pieces) ∧
      callMethod (.str "aaaaabaa") "Replace" [.str "aa", .str "-"] = .ok (.str "--ab-") ∧
      callStatic "string" "Join" [.str "-", .list pieces] = some (.ok (.str "--ab-")) ∧
      callStatic "string" "Join" [.str "aa", .list pieces] = some (.ok (.str "aaaaabaa")) := by
  intro pieces
  have hp : "aa" ≠ "" := by decide
  obtain ⟨found, replaced, hsplit, hreplace, hjoin, hself, -⟩ :=
    join_split_eq_replace "aaaaabaa" "-" "aa" hp
  have hpieces : found.map .str = pieces :=
    Value.list.inj (Except.ok.inj (hsplit.symm.trans rfl))
  have hreplaced : replaced = "--ab-" := Value.str.inj (Except.ok.inj (hreplace.symm.trans rfl))
  rw [hpieces] at hsplit hjoin hself
  rw [hreplaced] at hreplace hjoin
  exact ⟨hp, hsplit, hreplace, hjoin, hself⟩

end Expr.Library

end Stencil
