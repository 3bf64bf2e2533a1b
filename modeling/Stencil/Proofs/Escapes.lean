import Stencil.Proofs.Scan

/-! Delimiters that a backslash makes literal.

Behind a stretch of text the literal part is taken away, but for what may be the beginning of a
delimiter. A search that minds backslashes asks for one character more, the one in front of the
delimiter. If the stretch ended between it and the end of the delimiter, it has gone. Wherever else a
stretch ends (`Spared`), the search goes on as if nothing had been taken away
(`TextScan.Resumed.scan`). -/
namespace Stencil

/-- A place in a text that does not fall between a backslash and the end of a left delimiter right behind
it. -/
def Spared (left text : List Char) (place : Nat) : Prop :=
  ∀ n, Quoting.escape :: left <+: text.drop n → place ≤ n ∨ n + left.length < place

/-- The end of a text does not. -/
theorem spared_length (left text : List Char) : Spared left text text.length := by
  intro n hn
  have hle := hn.length_le
  rw [List.length_cons, List.length_drop] at hle
  omega

/-- Backslashes need to be looked for in the text only. -/
theorem spared_iff {left text : List Char} {place : Nat} :
    Spared left text place ↔ ∀ n < text.length,
      (Quoting.escape :: left).isPrefixOf (text.drop n) = true → place ≤ n ∨ n + left.length < place := by
  constructor
  · exact fun h n _ hn => h n (List.isPrefixOf_iff_prefix.1 hn)
  · intro h n hn
    refine h n (Nat.lt_of_not_le fun hle => ?_) (List.isPrefixOf_iff_prefix.2 hn)
    rw [List.drop_eq_nil_of_le hle] at hn
    cases List.prefix_nil.1 hn

namespace TextScan
variable {left fed text : List Char} {s s' : TextScan} {c : Char}

/-- A character that finds nothing is held; or it completes a delimiter, which is held without the
backslash in front of it. -/
theorem of_feed_miss (h : s.feed c = (false, s')) :
    (∃ matcher, s.left.feed c = (false, matcher) ∧
      s' = { s with left := matcher, held := c :: s.held }) ∨
      ∃ size before, s.left.pattern.length = size + 1 ∧ s.left.feed c = (true, s.left.reset) ∧
        (c :: s.held).drop (size + 1) = Quoting.escape :: before ∧
        s' = { s with left := s.left.reset, held := (c :: s.held).take (size + 1) ++ before } := by
  cases hm : s.left.feed c with
  | mk hit matcher =>
    cases hit with
    | false =>
      rw [feed_of_miss hm] at h
      cases h
      exact .inl ⟨matcher, rfl, rfl⟩
    | true =>
      obtain ⟨-, rfl⟩ := Matcher.length_of_hit hm
      obtain ⟨size, hsize⟩ : ∃ size, s.left.pattern.length = size + 1 := by
        refine Nat.exists_eq_succ_of_ne_zero fun hz => ?_
        rw [Matcher.feed_of_empty (List.eq_nil_of_length_eq_zero hz)] at hm
        cases hm
      have hreset : s.left.reset.pattern.length = size + 1 := hsize
      unfold TextScan.feed at h
      rw [hm] at h
      dsimp only at h
      rw [hreset] at h
      split at h
      · cases h
      · next last before hd =>
        split at h
        · next he =>
          cases h
          rw [Bool.and_eq_true, decide_eq_true_eq] at he
          exact .inr ⟨size, before, hsize, rfl, he.2 ▸ hd, rfl⟩
        · cases h

/-- Where a delimiter is found, all but its last character was matched. -/
theorem Follows.length_of_found (h : s.Follows left fed) (hf : (s.feed c).1 = true) :
    left.length = s.left.matched + 1 := by
  obtain ⟨hpattern, _, back, _, hback⟩ := h
  cases hm : s.left.feed c with
  | mk hit matcher =>
    cases hit with
    | false =>
      rw [feed_of_miss hm] at hf
      cases hf
    | true =>
      have hle := (Matcher.length_of_hit hm).1
      have hne : s.left.pattern ≠ [] := fun hempty => by
        rw [Matcher.feed_of_empty hempty] at hm
        cases hm
      have hlt := hback.lt_length hne
      rw [hpattern] at hle hlt
      omega

/-! ### What a search still knows of its text -/

/-- The search has been fed a text, and what it holds ends as the text does, as far as it has to look
back. -/
structure Recalls (left : List Char) (s : TextScan) (fed : List Char) : Prop where
  follows : s.Follows left fed
  matched_le : s.left.matched ≤ s.held.length
  recent : s.held.take (s.left.matched + 1) <+: fed.reverse

theorem recalls_plain (left fed : List Char) : (plain left).Recalls left fed :=
  ⟨follows_plain left fed, Nat.le_refl _, List.nil_prefix⟩

theorem recalls_escaping (left fed : List Char) : (escaping left).Recalls left fed :=
  ⟨follows_escaping left fed, Nat.le_refl _, List.nil_prefix⟩

namespace Recalls

theorem miss (h : s.Recalls left fed) (hf : s.feed c = (false, s')) :
    s'.Recalls left (fed ++ [c]) := by
  have hfed : (fed ++ [c]).reverse = c :: fed.reverse := by
    rw [List.reverse_append, List.reverse_singleton, List.singleton_append]
  rcases of_feed_miss hf with ⟨matcher, hm, rfl⟩ | ⟨size, before, _, _, _, rfl⟩
  · have hle := Matcher.matched_of_miss hm
    refine ⟨h.follows.miss hf, Nat.le_trans hle (Nat.succ_le_succ h.matched_le), ?_⟩
    show (c :: s.held).take (matcher.matched + 1) <+: _
    rw [hfed, List.take_succ_cons, List.prefix_cons_inj]
    exact (List.take_prefix_take_left hle).trans h.recent
  · refine ⟨h.follows.miss hf, Nat.zero_le _, ?_⟩
    rw [hfed]
    exact (List.prefix_cons_inj c).2 List.nil_prefix

/-- Behind a stretch in which nothing is found. -/
theorem scan (h : s.Recalls left fed) {stretch : List Char} (hf : (s.scan stretch).found = false) :
    (s.scan stretch).scan.Recalls left (fed ++ stretch) :=
  (scanWith_invariant (P := Recalls left) (fun _ _ _ _ h hf => h.miss hf) h stretch).1 hf

/-- Taking literal text leaves what is still matched. -/
theorem take (h : s.Recalls left fed) :
    (s.take s.left.matched).2.Recalls left fed ∧
      s = (s.take s.left.matched).2.above (s.held.drop s.left.matched) := by
  have hlen : (s.held.take s.left.matched).length = s.left.matched :=
    List.length_take_of_le h.matched_le
  refine ⟨⟨h.follows, Nat.le_of_eq hlen.symm, ?_⟩, ?_⟩
  · show (s.held.take s.left.matched).take (s.left.matched + 1) <+: fed.reverse
    rw [List.take_of_length_le (by rw [hlen]; exact Nat.le_succ _)]
    exact (List.take_prefix_take_left (Nat.le_succ _)).trans h.recent
  · show s = { s with held := s.held.take s.left.matched ++ s.held.drop s.left.matched }
    rw [List.take_append_drop]

end Recalls

/-! ### Searches that are taken up again -/

/-- A search that `old` was taken away from at a place in what it was fed. It holds more than is matched,
unless what is matched reaches back to that place. -/
structure Resumed (left fed old : List Char) (place : Nat) (s : TextScan) : Prop where
  recalls : (s.above old).Recalls left fed
  matched_le : s.left.matched ≤ s.held.length
  place_le : place ≤ fed.length
  since : s.left.matched = s.held.length → fed.length ≤ place + s.left.matched

namespace Resumed
variable {old rest : List Char} {place : Nat}

/-- A delimiter that is found is in front of no backslash that was taken away. -/
theorem head?_ne_escape (h : Resumed left fed old place s) (hs : Spared left text place)
    (ht : text = fed ++ c :: rest) (hf : (s.feed c).1 = true)
    (hall : s.left.matched = s.held.length) : old.head? ≠ some Quoting.escape := by
  intro ho
  obtain ⟨before, rfl⟩ : ∃ before, old = Quoting.escape :: before := by
    cases old with
    | nil => cases ho
    | cons last before => exact ⟨before, by rw [Option.some.inj ho]⟩
  -- What was fed ends with a backslash and all but the last character of the delimiter.
  have hrecent : s.held ++ [Quoting.escape] <+: fed.reverse := by
    have hrecent := h.recalls.recent
    have htake : (s.held ++ Quoting.escape :: before).take (s.left.matched + 1) =
        s.held ++ [Quoting.escape] := by
      rw [hall, List.take_length_add_append]
      rfl
    exact htake ▸ hrecent
  obtain ⟨front, hfront⟩ := hrecent
  have hfed : fed = front.reverse ++ Quoting.escape :: s.held.reverse := by
    rw [← List.reverse_reverse fed, ← hfront]
    simp
  have hfollows : s.Follows left fed := h.recalls.follows
  have hhit : s.feed c = (true, (s.feed c).2) := by rw [← hf]
  have hsuffix : left <:+ fed ++ [c] := hfollows.hit hhit
  have hlength : left.length = s.held.length + 1 := hall ▸ hfollows.length_of_found hf
  have hleft : left = s.held.reverse ++ [c] := by
    refine List.IsSuffix.eq_of_length (List.suffix_of_suffix_length_le hsuffix ?_ ?_) ?_
    · rw [hfed]
      exact ⟨front.reverse ++ [Quoting.escape], by simp⟩
    · simp [hlength]
    · simp [hlength]
  have hescaped : Quoting.escape :: left <+: text.drop front.length := by
    have hdrop : text.drop front.length = Quoting.escape :: s.held.reverse ++ c :: rest := by
      have hfront : front.length = front.reverse.length := List.length_reverse.symm
      rw [ht, hfed, List.append_assoc, hfront, List.drop_left]
    rw [hdrop, hleft]
    exact ⟨rest, by simp⟩
  have hcount : fed.length = front.length + s.held.length + 1 := by
    rw [hfed]
    simp
    omega
  have hsince := h.since hall
  have hplace := h.place_le
  rcases hs front.length hescaped with hle | hlt <;> omega

/-- The next character is treated in the same way. -/
theorem feed (h : Resumed left fed old place s) (hs : Spared left text place)
    (ht : text = fed ++ c :: rest) :
    (s.above old).feed c = ((s.feed c).1, (s.feed c).2.above old) ∧
      (s.feed c).2.left.matched ≤ (s.feed c).2.held.length ∧
      ((s.feed c).1 = false → Resumed left (fed ++ [c]) old place (s.feed c).2) := by
  obtain ⟨habove, hle⟩ := @feed_above s h.matched_le old c
    fun hf _ hall => h.head?_ne_escape hs ht hf hall
  refine ⟨habove, hle, fun hf => ⟨h.recalls.miss (by rw [habove, hf]), hle, ?_, fun hall => ?_⟩⟩
  · exact Nat.le_trans h.place_le (by rw [List.length_append]; exact Nat.le_add_right _ _)
  · rcases of_feed_miss (by rw [← hf]) with ⟨matcher, hm, hnext⟩ | ⟨size, before, _, _, _, hnext⟩
    · -- If all that is held is matched, so it was before, and the match has grown.
      have hmatched := Matcher.matched_of_miss hm
      have hheld := h.matched_le
      have hsince := h.since
      rw [hnext] at hall ⊢
      rw [List.length_append]
      dsimp only [List.length_cons, List.length_nil] at hall ⊢
      omega
    · -- A delimiter is held, of which nothing is matched.
      rw [hnext] at hall
      cases hall

/-- So is all that follows. -/
theorem scan (h : Resumed left fed old place s) (hs : Spared left text place)
    (ht : text = fed ++ rest) :
    (s.above old).scan rest = { s.scan rest with scan := (s.scan rest).scan.above old } ∧
      (s.scan rest).scan.left.matched ≤ (s.scan rest).scan.held.length := by
  unfold TextScan.scan
  induction rest generalizing s fed with
  | nil => exact ⟨rfl, h.matched_le⟩
  | cons c rest ih =>
    obtain ⟨ho, hle, hmiss⟩ := h.feed hs ht
    cases he : s.feed c with
    | mk hit s' =>
      rw [he] at ho hle hmiss
      cases hit with
      | true =>
        rw [scanWith_hit ho, scanWith_hit he]
        exact ⟨rfl, hle⟩
      | false =>
        obtain ⟨hscan, hmatched⟩ := ih (hmiss rfl) (by rw [ht, List.append_assoc]; rfl)
        rw [scanWith_miss ho, scanWith_miss he, hscan]
        exact ⟨rfl, hmatched⟩

end Resumed

/-- Right behind the place, nothing more is held than is matched. -/
theorem Recalls.resumed (h : s.Recalls left fed) :
    Resumed left fed (s.held.drop s.left.matched) fed.length (s.take s.left.matched).2 where
  recalls := h.take.2 ▸ h
  matched_le := h.take.1.matched_le
  place_le := Nat.le_refl _
  since _ := Nat.le_add_right _ _

end TextScan

end Stencil
