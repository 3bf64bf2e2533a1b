import Stencil.Delimiter.Matcher

/-! What a matcher knows.

Between two hits a matcher has matched the longest beginning of its delimiter that the characters fed
since the last hit end with (`Matcher.Follows`). So it hits exactly when they end with the whole
delimiter. -/
namespace Stencil

/-- Of the beginnings of `pattern` that `text` ends with, the longest has length `n`. -/
structure LongestEnd (pattern text : List Char) (n : Nat) : Prop where
  le_length : n ≤ pattern.length
  isSuffix : pattern.take n <:+ text
  le_of_isSuffix : ∀ k, k ≤ pattern.length → pattern.take k <:+ text → k ≤ n

/-- A beginning goes on with a character. -/
theorem take_succ_isSuffix_iff {pattern text : List Char} {c : Char} {n : Nat}
    (hn : n < pattern.length) :
    pattern.take (n + 1) <:+ text ++ [c] ↔ pattern[n]? = some c ∧ pattern.take n <:+ text := by
  rw [List.take_succ_eq_append_getElem hn, List.getElem?_eq_getElem hn, List.suffix_concat_iff]
  constructor
  · rintro (h | ⟨t, ht, hs⟩)
    · simp only [List.append_eq_nil_iff, List.cons_ne_nil, and_false] at h
    · obtain ⟨rfl, hc⟩ := List.append_inj' ht rfl
      injection hc with hc
      exact ⟨by rw [hc], hs⟩
  · rintro ⟨hc, hs⟩
    injection hc with hc
    exact .inr ⟨_, by rw [hc], hs⟩

theorem length_take_of_isSuffix {pattern text : List Char} {n : Nat} (hn : n ≤ pattern.length)
    (h : pattern.take n <:+ text) : n ≤ text.length := by
  have := h.length_le
  rwa [List.length_take_of_le hn] at this

namespace Borders
variable {pattern : List Char}

/-- The table says of every prefix it has an entry for what its longest border is. -/
structure Exact (pattern : List Char) (borders : Borders) : Prop where
  length_le : borders.lengths.length ≤ pattern.length
  isSuffix : ∀ n k, borders.lengths[n]? = some k → pattern.take k <:+ pattern.take (n + 1)
  le_of_isSuffix : ∀ n k, borders.lengths[n]? = some k →
    ∀ j, j ≤ n → pattern.take j <:+ pattern.take (n + 1) → j ≤ k

/-- Falling back from border to border finds the longest beginning that goes on with `c`, if none is
more than one character longer than the one that is matched. -/
theorem longestEnd_advance {borders : Borders} (hb : borders.Exact pattern) {text : List Char}
    {c : Char} {matched : Nat} (hm : pattern.take matched <:+ text)
    (hl : matched ≤ borders.lengths.length)
    (hle : ∀ k, k ≤ pattern.length → pattern.take k <:+ text ++ [c] → k ≤ matched + 1) :
    LongestEnd pattern (text ++ [c]) (borders.advance pattern c matched) := by
  -- Where the delimiter does not go on with `c`, nothing of length `matched + 1` fits.
  have hmiss : ∀ {n : Nat}, n ≤ borders.lengths.length → ¬pattern[n]? = some c →
      (∀ k, k ≤ pattern.length → pattern.take k <:+ text ++ [c] → k ≤ n + 1) →
      ∀ k, k ≤ pattern.length → pattern.take k <:+ text ++ [c] → k ≤ n := by
    intro n _ hne hle k hk hs
    rcases Nat.lt_or_eq_of_le (hle k hk hs) with hlt | rfl
    · omega
    · exact absurd ((take_succ_isSuffix_iff (by omega)).1 hs).1 hne
  fun_induction advance pattern borders c matched with
  | case1 n hc =>
    have hn : n < pattern.length := by
      obtain ⟨h, _⟩ := List.getElem?_eq_some_iff.1 hc
      exact h
    exact ⟨hn, (take_succ_isSuffix_iff hn).2 ⟨hc, hm⟩, hle⟩
  | case2 hne => exact ⟨Nat.zero_le _, List.nil_suffix, hmiss hl hne hle⟩
  | case3 n k hk hne ih =>
    have hn := borders.shorter n k hk
    refine ih ((hb.isSuffix n k hk).trans hm) (by omega) fun j hj hs => ?_
    have hjn := hmiss hl hne hle j hj hs
    cases j with
    | zero => omega
    | succ i =>
      have hi := ((take_succ_isSuffix_iff (by omega)).1 hs).2
      have hlen := hb.length_le
      have := hb.le_of_isSuffix n k hk i (by omega) (List.suffix_of_suffix_length_le hi hm (by
        rw [List.length_take_of_le (by omega), List.length_take_of_le (by omega)]
        omega))
      omega
  | case4 n hk hne =>
    have := List.getElem?_eq_none_iff.1 hk
    omega

/-- The entry of the next longer prefix. -/
theorem exact_extend {borders : Borders} (hb : borders.Exact pattern) {c : Char}
    (hc : pattern[borders.lengths.length]? = some c) : (borders.extend pattern c).Exact pattern := by
  obtain ⟨hlt, -⟩ := List.getElem?_eq_some_iff.1 hc
  have htake : pattern.take (borders.lengths.length + 1) =
      pattern.take borders.lengths.length ++ [c] := by
    rw [List.take_add_one, hc]
    rfl
  have hentry : pattern.take (borders.next pattern c) <:+
        pattern.take (borders.lengths.length + 1) ∧
      ∀ j, j ≤ borders.lengths.length →
        pattern.take j <:+ pattern.take (borders.lengths.length + 1) →
        j ≤ borders.next pattern c := by
    unfold next
    split
    · next hn =>
      have hz : borders.lengths.length = 0 := by rw [List.getLast?_eq_none_iff.1 hn]; rfl
      exact ⟨List.nil_suffix, fun j hj _ => by omega⟩
    · next k hk =>
      rw [List.getLast?_eq_getElem?] at hk
      obtain ⟨hpos, -⟩ := List.getElem?_eq_some_iff.1 hk
      have hkn := borders.shorter _ k hk
      have hks := hb.isSuffix _ k hk
      have hkl := hb.le_of_isSuffix _ k hk
      rw [show borders.lengths.length - 1 + 1 = borders.lengths.length by omega] at hks hkl
      have h : LongestEnd pattern (pattern.take k ++ [c]) (borders.advance pattern c k) :=
        longestEnd_advance hb List.suffix_rfl (by omega) fun j hj hs => by
          have := length_take_of_isSuffix hj hs
          rw [List.length_append, List.length_take_of_le (by omega), List.length_singleton] at this
          exact this
      refine ⟨?_, fun j hj hs => ?_⟩
      · rw [htake]
        obtain ⟨t, ht⟩ := hks
        refine h.isSuffix.trans ⟨t, ?_⟩
        rw [← List.append_assoc, ht]
      · cases j with
        | zero => omega
        | succ i =>
          rw [htake] at hs
          obtain ⟨hic, his⟩ := (take_succ_isSuffix_iff (by omega)).1 hs
          have hik := hkl i (by omega) his
          refine h.le_of_isSuffix (i + 1) (by omega) ((take_succ_isSuffix_iff (by omega)).2 ⟨hic, ?_⟩)
          refine List.suffix_of_suffix_length_le his hks ?_
          rw [List.length_take_of_le (by omega), List.length_take_of_le (by omega)]
          exact hik
  -- The old entries are those of the old table, the new one is the one above.
  have hcases : ∀ n k, (borders.extend pattern c).lengths[n]? = some k →
      borders.lengths[n]? = some k ∨
        (n = borders.lengths.length ∧ k = borders.next pattern c) := by
    intro n k h
    rw [extend] at h
    rcases Nat.lt_trichotomy n borders.lengths.length with hn | rfl | hn
    · rw [List.getElem?_append_left hn] at h
      exact .inl h
    · rw [List.getElem?_concat_length] at h
      injection h with h
      exact .inr ⟨rfl, h.symm⟩
    · rw [List.getElem?_eq_none (by simp only [List.length_append, List.length_singleton]; omega)] at h
      cases h
  refine ⟨?_, fun n k h => ?_, fun n k h => ?_⟩
  · rw [extend, List.length_append, List.length_singleton]
    exact hlt
  · rcases hcases n k h with h | ⟨rfl, rfl⟩
    · exact hb.isSuffix n k h
    · exact hentry.1
  · rcases hcases n k h with h | ⟨rfl, rfl⟩
    · exact hb.le_of_isSuffix n k h
    · exact hentry.2

@[simp] theorem lengths_ofPattern_nil : (ofPattern []).lengths = [] := rfl

/-- What holds of the empty table, and goes on to hold with the entry of the next prefix, holds of the
table of a pattern, which has an entry for every prefix. -/
theorem ofPattern_induction {P : Borders → Prop} (hempty : P (ofPattern []))
    (hextend : ∀ (borders : Borders) (c : Char), pattern[borders.lengths.length]? = some c →
      P borders → P (borders.extend pattern c)) :
    P (ofPattern pattern) ∧ (ofPattern pattern).lengths.length = pattern.length := by
  suffices ∀ (done rest : List Char) (borders : Borders), pattern = done ++ rest →
      borders.lengths.length = done.length → P borders →
      P (rest.foldl (extend pattern) borders) ∧
        (rest.foldl (extend pattern) borders).lengths.length = pattern.length from
    this [] pattern (ofPattern []) rfl rfl hempty
  intro done rest
  induction rest generalizing done with
  | nil =>
    intro borders hp hl hb
    rw [List.append_nil] at hp
    exact ⟨hb, by rw [hp]; exact hl⟩
  | cons c rest ih =>
    intro borders hp hl hb
    refine ih (done ++ [c]) _ (by rw [hp, List.append_assoc]; rfl) ?_ (hextend borders c ?_ hb)
    · rw [extend, List.length_append, List.length_append, hl]
      rfl
    · rw [hp, hl, List.getElem?_append_right (Nat.le_refl _), Nat.sub_self]
      rfl

/-- The table of a pattern has an entry for every prefix, and it is the right one. -/
theorem exact_ofPattern (pattern : List Char) :
    (ofPattern pattern).Exact pattern ∧ (ofPattern pattern).lengths.length = pattern.length :=
  ofPattern_induction ⟨Nat.zero_le _, fun n k h => by simp at h, fun n k h => by simp at h⟩
    fun _ _ hc hb => exact_extend hb hc

end Borders

namespace Matcher

/-- The matcher was fed `text` since it last started over. -/
structure Follows (m : Matcher) (text : List Char) : Prop where
  exact : m.borders.Exact m.pattern
  complete : m.borders.lengths.length = m.pattern.length
  longest : LongestEnd m.pattern text m.matched
  lt_length : m.pattern ≠ [] → m.matched < m.pattern.length

theorem follows_ofPattern (pattern : List Char) : (ofPattern pattern).Follows [] where
  exact := (Borders.exact_ofPattern pattern).1
  complete := (Borders.exact_ofPattern pattern).2
  longest := ⟨Nat.zero_le _, List.nil_suffix, fun _ hk hs => length_take_of_isSuffix hk hs⟩
  lt_length := List.length_pos_iff.2

theorem Follows.reset {m : Matcher} {text : List Char} (h : m.Follows text) : m.reset.Follows [] where
  exact := h.exact
  complete := h.complete
  longest := ⟨Nat.zero_le _, List.nil_suffix, fun _ hk hs => length_take_of_isSuffix hk hs⟩
  lt_length := List.length_pos_iff.2

/-- What a matcher was fed does not matter, if the last character is none of its delimiter. -/
theorem Follows.forget {m : Matcher} {text : List Char} {c : Char}
    (h : m.Follows (text ++ [c])) (hc : c ∉ m.pattern) : m.Follows [] where
  exact := h.exact
  complete := h.complete
  lt_length := h.lt_length
  longest := by
    have hzero : m.matched = 0 := by
      cases hm : m.matched with
      | zero => rfl
      | succ n =>
        have hlongest := h.longest
        rw [hm] at hlongest
        obtain ⟨hget, -⟩ := (take_succ_isSuffix_iff hlongest.le_length).1 hlongest.isSuffix
        exact absurd (List.mem_of_getElem? hget) hc
    rw [hzero]
    exact ⟨Nat.zero_le _, List.nil_suffix, fun _ hk hs => length_take_of_isSuffix hk hs⟩

/-- The empty delimiter is never hit. -/
theorem feed_of_empty {m : Matcher} (hn : m.pattern = []) (c : Char) : m.feed c = (false, m) := by
  unfold Matcher.feed
  rw [hn]
  rfl

theorem feed_of_nonempty {m : Matcher} (hn : m.pattern ≠ []) (c : Char) :
    m.feed c = if m.borders.advance m.pattern c m.matched = m.pattern.length then (true, m.reset)
      else (false, { m with matched := m.borders.advance m.pattern c m.matched }) := by
  unfold Matcher.feed
  rw [List.isEmpty_eq_false_iff.2 hn]
  rfl

/-- A matcher hits when what it was fed ends with the delimiter, and otherwise follows on. -/
theorem Follows.feed {m : Matcher} {text : List Char} (h : m.Follows text) (hn : m.pattern ≠ [])
    (c : Char) :
    (m.pattern <:+ text ++ [c] ∧ m.feed c = (true, m.reset)) ∨
      (¬m.pattern <:+ text ++ [c] ∧
        ∃ matched, m.feed c = (false, { m with matched }) ∧
          ({ m with matched } : Matcher).Follows (text ++ [c])) := by
  have hlt := h.lt_length hn
  have hl : m.matched ≤ m.borders.lengths.length := by rw [h.complete]; exact Nat.le_of_lt hlt
  have hlongest := Borders.longestEnd_advance h.exact h.longest.isSuffix hl (c := c)
    fun k hk hs => by
      cases k with
      | zero => omega
      | succ i =>
        have := h.longest.le_of_isSuffix i (by omega) ((take_succ_isSuffix_iff (by omega)).1 hs).2
        omega
  have hfeed := feed_of_nonempty hn c
  by_cases heq : m.borders.advance m.pattern c m.matched = m.pattern.length
  · rw [heq] at hlongest
    have hs := hlongest.isSuffix
    rw [List.take_length] at hs
    rw [if_pos heq] at hfeed
    exact .inl ⟨hs, hfeed⟩
  · rw [if_neg heq] at hfeed
    have hle := hlongest.le_length
    refine .inr ⟨fun hs => ?_, _, hfeed, h.exact, h.complete, hlongest, fun _ => ?_⟩
    · have := hlongest.le_of_isSuffix m.pattern.length (Nat.le_refl _) (by rwa [List.take_length])
      omega
    · show m.borders.advance m.pattern c m.matched < m.pattern.length
      omega

theorem Follows.of_hit {m m' : Matcher} {text : List Char} (h : m.Follows text) {c : Char}
    (hf : m.feed c = (true, m')) : m.pattern <:+ text ++ [c] ∧ m' = m.reset := by
  by_cases hn : m.pattern = []
  · rw [feed_of_empty hn] at hf
    cases hf
  · rcases h.feed hn c with ⟨hs, he⟩ | ⟨_, matched, he, _⟩
    · rw [he] at hf
      cases hf
      exact ⟨hs, rfl⟩
    · rw [he] at hf
      cases hf

theorem Follows.of_miss {m m' : Matcher} {text : List Char} (h : m.Follows text) {c : Char}
    (hf : m.feed c = (false, m')) :
    m'.Follows (text ++ [c]) ∧ ∃ matched, m' = { m with matched } := by
  by_cases hn : m.pattern = []
  · rw [feed_of_empty hn] at hf
    cases hf
    refine ⟨⟨h.exact, h.complete, ⟨h.longest.le_length, ?_, fun k hk _ => ?_⟩, h.lt_length⟩, _, rfl⟩
    · rw [hn, List.take_nil]
      exact List.nil_suffix
    · rw [hn] at hk
      exact Nat.le_trans hk (Nat.zero_le _)
  · rcases h.feed hn c with ⟨_, he⟩ | ⟨_, matched, he, hfollows⟩
    · rw [he] at hf
      cases hf
    · rw [he] at hf
      cases hf
      exact ⟨hfollows, matched, rfl⟩

/-- A character extends what is matched by one at most. -/
theorem matched_of_miss {m m' : Matcher} {c : Char} (hf : m.feed c = (false, m')) :
    m'.matched ≤ m.matched + 1 := by
  by_cases hn : m.pattern = []
  · rw [feed_of_empty hn] at hf
    cases hf
    exact Nat.le_succ _
  · rw [feed_of_nonempty hn] at hf
    split at hf
    · cases hf
    · cases hf
      exact Borders.advance_le ..

/-- A hit needs all characters of the delimiter. -/
theorem length_of_hit {m m' : Matcher} {c : Char} (hf : m.feed c = (true, m')) :
    m.pattern.length ≤ m.matched + 1 ∧ m' = m.reset := by
  by_cases hn : m.pattern = []
  · rw [feed_of_empty hn] at hf
    cases hf
  · rw [feed_of_nonempty hn] at hf
    split at hf
    · next he =>
      cases hf
      exact ⟨he ▸ Borders.advance_le .., rfl⟩
    · cases hf

end Matcher

end Stencil
