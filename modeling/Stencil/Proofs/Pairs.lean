import Stencil.Proofs.Closing

/-! Pairs of delimiters in each other.

The text of a token may hold quoted stretches, with whatever stands in them, and pairs of delimiters
with such texts in them (`CloseScan.Body`). If the two delimiters have no character in common, a close
scan that passes over such a text stands behind it as it stood in front of it, however the delimiters
overlap themselves (`CloseScan.Body.passes`). So the token ends at the first right delimiter behind the
text, and what stands in one pair can be told from what stands in two (`CloseScan.recovers_and_unwraps`). -/
namespace Stencil

/-! ### Quoted stretches -/

/-- What may stand between two quotes: characters other than quotes and backslashes, and pairs of a
backslash and any character. -/
inductive Quoting.Content : List Char → Prop
  | nil : Content []
  | plain {c : Char} {rest : List Char} (hm : c ≠ mark) (he : c ≠ escape) (h : Content rest) :
      Content (c :: rest)
  | pair (c : Char) {rest : List Char} (h : Content rest) : Content (escape :: c :: rest)

/-- The quote behind it closes the stretch, and up to there nothing is seen. -/
theorem Quoting.Content.close {text : List Char} (h : Content text) :
    inside.after (text ++ [mark]) = outside ∧
      inside.mask (text ++ [mark]) = List.replicate text.length mark ++ [mark] := by
  induction h with
  | nil => exact ⟨rfl, rfl⟩
  | @plain c rest hm he _ ih =>
    have hnext : inside.next c = inside := by simp [next, hm, he]
    obtain ⟨hafter, hmask⟩ := ih
    refine ⟨?_, ?_⟩
    · show (inside.next c).after (rest ++ [mark]) = outside
      rw [hnext, hafter]
    · show inside.shown c :: (inside.next c).mask (rest ++ [mark]) = _
      rw [hnext, hmask]
      rfl
  | @pair c rest _ ih =>
    obtain ⟨hafter, hmask⟩ := ih
    refine ⟨hafter, ?_⟩
    show inside.shown escape :: escaped.shown c :: inside.mask (rest ++ [mark]) = _
    rw [hmask]
    rfl

namespace CloseScan
variable {left right : List Char}

/-- Delimiters that a token can be closed with and that have no character in common. -/
structure Apart (left right : List Char) : Prop extends Proper left right where
  disjoint : ∀ c ∈ left, c ∉ right

namespace Apart

theorem of_disjoint (hl : left ≠ []) (hr : right ≠ []) (hml : Quoting.mark ∉ left)
    (hmr : Quoting.mark ∉ right) (hd : ∀ c ∈ left, c ∉ right) : Apart left right := by
  refine ⟨⟨hl, hr, ?_, hml, hmr⟩, hd⟩
  rintro rfl
  obtain ⟨c, hc⟩ := List.exists_mem_of_ne_nil left hl
  exact hd c hc hc

/-- No delimiter is seen in front of the last character of one. -/
theorem clear_left (h : Apart left right) : Clear left right left [] where
  balanced := rfl
  not_left hs := by
    have := hs.length_le
    have := List.length_pos_iff.2 h.left_ne_nil
    simp [Quoting.mask] at *
    omega
  not_right hs := by
    obtain ⟨c, hc⟩ := List.exists_mem_of_ne_nil right h.right_ne_nil
    exact h.disjoint c (List.dropLast_subset left (hs.subset hc)) hc

theorem clear_right (h : Apart left right) : Clear left right right [] where
  balanced := rfl
  not_left hs := by
    obtain ⟨c, hc⟩ := List.exists_mem_of_ne_nil left h.left_ne_nil
    exact h.disjoint c hc (List.dropLast_subset right (hs.subset hc))
  not_right hs := by
    have := hs.length_le
    have := List.length_pos_iff.2 h.right_ne_nil
    simp [Quoting.mask] at *
    omega

theorem not_right_left (h : Apart left right) : ¬right <:+: Quoting.outside.mask [] ++ left := by
  intro hs
  obtain ⟨c, hc⟩ := List.exists_mem_of_ne_nil right h.right_ne_nil
  exact h.disjoint c (hs.subset hc) hc

end Apart

/-! ### Texts that are passed over -/

/-- Behind the text, a scan in any number of pairs stands as it stood in front of it. -/
def Passes (left right text : List Char) : Prop :=
  ∀ (s : CloseScan) (depth : Nat), s.Stands left right depth .outside [] →
    (s.scan text).found = false ∧ (s.scan text).scan.Stands left right depth .outside []

theorem passes_nil : Passes left right [] := fun _ _ h => ⟨rfl, h⟩

theorem Passes.append {text more : List Char} (h : Passes left right text)
    (h' : Passes left right more) : Passes left right (text ++ more) := by
  intro s depth hs
  obtain ⟨hmiss, hstands⟩ := h s depth hs
  rw [scan_append hmiss]
  exact h' _ depth hstands

/-- Where a character is behind the others that is in no delimiter, nothing of them matters. -/
theorem Stands.forget {s : CloseScan} {depth : Nat} {seen : List Char} {c : Char}
    (h : s.Stands left right depth .outside (seen ++ [c])) (hl : c ∉ left) (hr : c ∉ right) :
    s.Stands left right depth .outside [] where
  left_pattern := h.left_pattern
  right_pattern := h.right_pattern
  nests := h.nests
  depth_eq := h.depth_eq
  quoting_eq := h.quoting_eq
  left_follows := h.left_follows.forget (h.left_pattern ▸ hl)
  right_follows := h.right_follows.forget (h.right_pattern ▸ hr)
  quoted hn := absurd rfl hn

/-- A delimiter is seen nowhere in a text that has none of its characters. -/
theorem not_isSuffix_of_disjoint {delimiter piece : List Char} (hn : delimiter ≠ [])
    (hd : ∀ c ∈ piece, c ∉ delimiter) : ¬delimiter <:+ piece := by
  intro hs
  obtain ⟨c, hc⟩ := List.exists_mem_of_ne_nil delimiter hn
  exact hd c (hs.subset hc) hc

/-- A text that shows no character of a delimiter. -/
theorem passes_of_mask (hp : Proper left right) {text seen : List Char} {last : Char}
    (hb : Quoting.Balanced text) (hm : Quoting.outside.mask text = seen ++ [last])
    (hl : ∀ c ∈ seen ++ [last], c ∉ left) (hr : ∀ c ∈ seen ++ [last], c ∉ right) :
    Passes left right text := by
  intro s depth hs
  have hscan := hs.scan_quiet hp text fun piece hpiece _ => by
    rw [hm] at hpiece
    exact ⟨not_isSuffix_of_disjoint hp.left_ne_nil fun c hc => hl c (hpiece.subset hc),
      not_isSuffix_of_disjoint hp.right_ne_nil fun c hc => hr c (hpiece.subset hc)⟩
  rw [hb, hm, List.nil_append] at hscan
  exact ⟨hscan.1, hscan.2.forget (hl last (by simp)) (hr last (by simp))⟩

theorem passes_plain (hp : Proper left right) {c : Char} (hm : c ≠ Quoting.mark) (hl : c ∉ left)
    (hr : c ∉ right) : Passes left right [c] := by
  have hbalanced : Quoting.Balanced [c] := if_neg hm
  have hmask : Quoting.outside.mask [c] = [] ++ [c] := rfl
  exact passes_of_mask hp hbalanced hmask (List.forall_mem_singleton.2 hl)
    (List.forall_mem_singleton.2 hr)

theorem passes_quoted (hp : Proper left right) {text : List Char} (h : Quoting.Content text) :
    Passes left right (Quoting.mark :: (text ++ [Quoting.mark])) := by
  obtain ⟨hafter, hmask⟩ := h.close
  have hall : ∀ c ∈ Quoting.mark :: List.replicate text.length Quoting.mark ++ [Quoting.mark],
      c = Quoting.mark := by
    intro c hc
    simp only [List.cons_append, List.mem_cons, List.mem_append, List.mem_replicate] at hc
    grind
  have hbalanced : Quoting.Balanced (Quoting.mark :: (text ++ [Quoting.mark])) := hafter
  have hmasked : Quoting.outside.mask (Quoting.mark :: (text ++ [Quoting.mark])) =
      Quoting.mark :: List.replicate text.length Quoting.mark ++ [Quoting.mark] :=
    congrArg (Quoting.mark :: ·) hmask
  refine passes_of_mask hp hbalanced hmasked (fun c hc => ?_) fun c hc => ?_
  · rw [hall c hc]
    exact hp.mark_notMem_left
  · rw [hall c hc]
    exact hp.mark_notMem_right

theorem Passes.pair {inner : List Char} (h : Passes left right inner) (ha : Apart left right) :
    Passes left right (left ++ inner ++ right) := by
  intro s depth hs
  obtain ⟨hleft, hopened⟩ := hs.scan_left ha.toProper ha.clear_left ha.not_right_left
  obtain ⟨hinner, hstands⟩ := h _ _ hopened
  obtain ⟨hright, hclosed⟩ := hstands.scan_right ha.toProper ha.clear_right
  rw [List.nil_append] at hleft hopened hinner hstands hright hclosed
  rw [List.append_assoc, scan_append hleft, scan_append hinner]
  exact ⟨hright, hclosed⟩

/-- The texts of tokens: characters that are in no delimiter, quoted stretches, and pairs of
delimiters around such texts. -/
inductive Body (left right : List Char) : List Char → Prop
  | nil : Body left right []
  | plain {c : Char} {rest : List Char} (hm : c ≠ Quoting.mark) (hl : c ∉ left) (hr : c ∉ right)
      (h : Body left right rest) : Body left right (c :: rest)
  | quoted {text rest : List Char} (ht : Quoting.Content text) (h : Body left right rest) :
      Body left right (Quoting.mark :: (text ++ [Quoting.mark]) ++ rest)
  | pair {inner rest : List Char} (hi : Body left right inner) (h : Body left right rest) :
      Body left right (left ++ inner ++ right ++ rest)

theorem Body.passes (ha : Apart left right) {text : List Char} (h : Body left right text) :
    Passes left right text := by
  induction h with
  | nil => exact passes_nil
  | plain hm hl hr _ ih => exact (passes_plain ha.toProper hm hl hr).append ih
  | quoted ht _ ih => exact (passes_quoted ha.toProper ht).append ih
  | pair _ _ ihi ih => exact (ihi.pair ha).append ih

/-! ### Tokens -/

theorem Passes.recovers (ha : Apart left right) {body : List Char} (h : Passes left right body) :
    Recovers left right body := by
  obtain ⟨hmiss, hstands⟩ := h _ _ (stands_start ha.toProper)
  obtain ⟨hfound, hconsumed⟩ := hstands.scan_right ha.toProper ha.clear_right
  rw [List.nil_append] at hfound hconsumed
  refine recovers_of_scan ?_ ?_
  · rw [scan_append hmiss]
    exact hfound
  · rw [scan_append hmiss, List.length_append]
    exact congrArg (body.length + ·) hconsumed

/-- Where something is behind the pair, it is not one pair. -/
theorem unwrap?_of_recovers_of_ne_nil {body rest : List Char} (h : Recovers left right body)
    (hn : rest ≠ []) : unwrap? left right (left ++ body ++ right ++ rest) = none := by
  obtain ⟨hfound, hconsumed, -⟩ := h [body ++ right ++ rest] rest (by simp)
  rw [scanSpans_eq, List.flatten_singleton] at hfound hconsumed
  have hwhole : left ++ body ++ right ++ rest = left ++ (body ++ right ++ rest) := by simp
  have hlength : (body ++ right ++ rest).length ≠ (body ++ right).length := by
    have := List.length_pos_iff.2 hn
    rw [List.length_append]
    omega
  unfold unwrap?
  rw [hwhole, if_pos (List.isPrefixOf_iff_prefix.2 (List.prefix_append _ _)), List.drop_left]
  dsimp only
  rw [hfound, hconsumed, if_neg (by simpa using hlength.symm)]

/-- **The text of a token is recovered**, whatever quotes and pairs of delimiters there are in it: if the
delimiters are not empty, have no quote in them and no character in common, then behind a left delimiter
the scan stops right behind the text and its right delimiter, whatever follows and wherever that is cut,
and has the text; and the text is what its pair of delimiters wraps, while several such pairs side by
side are not one that wraps anything. -/
theorem recovers_and_unwraps (hl : left ≠ []) (hr : right ≠ []) (hml : Quoting.mark ∉ left)
    (hmr : Quoting.mark ∉ right) (hd : ∀ c ∈ left, c ∉ right) :
    (∀ body, Body left right body → Recovers left right body ∧
      unwrap? left right (left ++ body ++ right) = some body) ∧
    ∀ bodies : List (List Char), (∀ body ∈ bodies, Body left right body) → 2 ≤ bodies.length →
      unwrap? left right (bodies.flatMap fun body => left ++ body ++ right) = none := by
  have ha := Apart.of_disjoint hl hr hml hmr hd
  have hrecovers : ∀ body, Body left right body → Recovers left right body :=
    fun body hb => (hb.passes ha).recovers ha
  refine ⟨fun body hb => ⟨hrecovers body hb, unwrap?_of_recovers (hrecovers body hb)⟩,
    fun bodies hb hlength => ?_⟩
  match bodies, hlength with
  | first :: second :: more, _ =>
    rw [List.flatMap_cons]
    refine unwrap?_of_recovers_of_ne_nil (hrecovers first (hb first (by simp))) ?_
    simp [hl]

/-- The left delimiter overlaps itself, and the text has both delimiters and an escaped quote in a quoted
stretch, and a pair with another in it. -/
theorem recovers_and_unwraps_overlapping :
    (Recovers "aab".toList "]]".toList "x\"]]\\\"aab\" aaby aab]]]]".toList ∧
      unwrap? "aab".toList "]]".toList "aabx\"]]\\\"aab\" aaby aab]]]]]]".toList =
        some "x\"]]\\\"aab\" aaby aab]]]]".toList) ∧
    unwrap? "aab".toList "]]".toList "aab]]aaby]]".toList = none := by
  obtain ⟨hone, hmany⟩ := @recovers_and_unwraps "aab".toList "]]".toList (by decide) (by decide)
    (by decide) (by decide) (by simp)
  have hquoted : Quoting.Content "]]\\\"aab".toList :=
    .plain (by decide) (by decide) <| .plain (by decide) (by decide) <| .pair _ <|
      .plain (by decide) (by decide) <| .plain (by decide) (by decide) <|
      .plain (by decide) (by decide) .nil
  have hpair : Body "aab".toList "]]".toList "y aab]]".toList :=
    .plain (by decide) (by decide) (by decide) <| .plain (by decide) (by decide) (by decide) <|
      .pair .nil .nil
  have hbody : Body "aab".toList "]]".toList "x\"]]\\\"aab\" aaby aab]]]]".toList :=
    .plain (by decide) (by decide) (by decide) <| .quoted hquoted <|
      .plain (by decide) (by decide) (by decide) <| .pair hpair .nil
  have hbodies : ∀ body ∈ ["".toList, "y".toList], Body "aab".toList "]]".toList body := by
    simpa using ⟨Body.nil, Body.plain (by decide) (by decide) (by decide) .nil⟩
  exact ⟨hone _ hbody, hmany ["".toList, "y".toList] hbodies (by decide)⟩

end CloseScan

end Stencil
