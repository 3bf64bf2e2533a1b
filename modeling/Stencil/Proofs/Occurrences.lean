import Mathlib.Order.Bounds.Basic
import Stencil.Proofs.Pieces

/-! The leftmost occurrences of a delimiter.

Occurrences that do not overlap are looked for from the beginning of a text, and behind each that is found
the search starts over (`Text.Restart`). A matcher that is fed the text comes to the same places: it hits at
the last character of each of these occurrences and at no other, and in between it has matched the longest
proper prefix of the delimiter that the text ends with since the last hit
(`Matcher.hits_leftmost_occurrences`). On the way it looks up only what is there, in the delimiter and in
the table of borders (`Borders.Settles`), and so does the making of the table (`Borders.Tabulated`). -/
namespace Stencil

/-! ### Occurrences that do not overlap -/

namespace Text
variable {piece text : List Char}

/-- From `start` on the piece occurs in the text at `n` first. -/
structure FirstFrom (piece text : List Char) (start n : Nat) : Prop where
  le : start ≤ n
  occurs : piece <+: text.drop n
  first : ∀ m, start ≤ m → m < n → ¬piece <+: text.drop m

/-- The search for occurrences that do not overlap starts at the beginning of the text, and it starts
over behind each one. -/
inductive Restart (piece text : List Char) : Nat → Prop
  | beginning : Restart piece text 0
  | behind {start n : Nat} (hs : Restart piece text start) (hn : FirstFrom piece text start n) :
    Restart piece text (n + piece.length)

/-- One of the leftmost occurrences that do not overlap begins at `n`. -/
def Leftmost (piece text : List Char) (n : Nat) : Prop :=
  ∃ start, Restart piece text start ∧ FirstFrom piece text start n

theorem FirstFrom.unique {start n n' : Nat} (h : FirstFrom piece text start n)
    (h' : FirstFrom piece text start n') : n = n' := by
  rcases Nat.lt_trichotomy n n' with hlt | rfl | hlt
  · exact absurd h.occurs (h'.first n h.le hlt)
  · rfl
  · exact absurd h'.occurs (h.first n' h'.le hlt)

/-- Between two places where the search starts it finds an occurrence. -/
theorem Restart.exists_between (hn : piece ≠ []) {a b : Nat} (ha : Restart piece text a)
    (hb : Restart piece text b) (hlt : a < b) :
    ∃ n, FirstFrom piece text a n ∧ n + piece.length ≤ b := by
  induction b using Nat.strong_induction_on generalizing a with
  | _ b ih =>
    cases hb with
    | beginning => exact absurd hlt (Nat.not_lt_zero a)
    | @behind start n hs hfirst =>
      have hpos := List.length_pos_iff.2 hn
      have hle := hfirst.le
      rcases Nat.lt_trichotomy a start with h | rfl | h
      · obtain ⟨m, hm, hend⟩ := ih start (by omega) ha hs h
        exact ⟨m, hm, by omega⟩
      · exact ⟨n, hfirst, Nat.le_refl _⟩
      · -- The search would have gone on from `start` to the occurrence in front of `b`.
        obtain ⟨m, hm, hend⟩ := ih a hlt hs ha h
        have := hm.unique hfirst
        omega

/-- The search that has come to `count` started at `start`, and found nothing since then. -/
structure Since (piece text : List Char) (count start : Nat) : Prop where
  restart : Restart piece text start
  le : start ≤ count
  nowhere : ∀ n, start ≤ n → n + piece.length ≤ count → ¬piece <+: text.drop n

namespace Since
variable {count start n : Nat}

theorem zero (hn : piece ≠ []) : Since piece text 0 0 where
  restart := .beginning
  le := Nat.le_refl 0
  nowhere n _ hle := by
    have := List.length_pos_iff.2 hn
    omega

/-- It started there last. -/
theorem isGreatest (hn : piece ≠ []) (h : Since piece text count start) :
    IsGreatest {s | Restart piece text s ∧ s ≤ count} start := by
  refine ⟨⟨h.restart, h.le⟩, fun s ⟨hs, hle⟩ => ?_⟩
  by_contra hlt
  obtain ⟨n, hfirst, hend⟩ := h.restart.exists_between hn hs (by omega)
  exact h.nowhere n hfirst.le (by omega) hfirst.occurs

/-- It finds what ends with the next character, if that does not begin before the search did. -/
theorem leftmost_iff (hn : piece ≠ []) (h : Since piece text count start)
    (hend : n + piece.length = count + 1) :
    Leftmost piece text n ↔ start ≤ n ∧ piece <+: text.drop n := by
  have hpos := List.length_pos_iff.2 hn
  constructor
  · rintro ⟨s, hs, hfirst⟩
    refine ⟨?_, hfirst.occurs⟩
    have hle := hfirst.le
    rcases Nat.lt_trichotomy s start with hlt | rfl | hlt
    · obtain ⟨m, hm, hbefore⟩ := hs.exists_between hn h.restart hlt
      have := hm.unique hfirst
      have := h.le
      omega
    · exact hle
    · omega
  · rintro ⟨hle, hoccurs⟩
    exact ⟨start, h.restart, hle, hoccurs, fun m hm hlt => h.nowhere m hm (by omega)⟩

/-- An occurrence that ends with the next character makes the search start over. -/
theorem hit (hn : piece ≠ []) (h : Since piece text count start) (hend : n + piece.length = count + 1)
    (hle : start ≤ n) (hoccurs : piece <+: text.drop n) :
    Since piece text (count + 1) (count + 1) where
  restart := hend ▸ .behind h.restart ⟨hle, hoccurs, fun m hm hlt => h.nowhere m hm (by omega)⟩
  le := Nat.le_refl _
  nowhere m hm hle := by
    have := List.length_pos_iff.2 hn
    omega

/-- If none ends there the search goes on. -/
theorem miss (h : Since piece text count start)
    (hno : ¬∃ n, start ≤ n ∧ n + piece.length = count + 1 ∧ piece <+: text.drop n) :
    Since piece text (count + 1) start where
  restart := h.restart
  le := Nat.le_succ_of_le h.le
  nowhere n hle hend hoccurs := by
    rcases Nat.lt_or_eq_of_le hend with hlt | heq
    · exact h.nowhere n hle (by omega) hoccurs
    · exact hno ⟨n, hle, heq, hoccurs⟩

end Since

/-- A stretch of text ends with a piece where one occurs that begins in it. -/
theorem isSuffix_drop_take_iff (piece : List Char) {count start : Nat} (hc : count ≤ text.length)
    (hs : start ≤ count) :
    piece <:+ (text.take count).drop start ↔
      ∃ n, start ≤ n ∧ n + piece.length = count ∧ piece <+: text.drop n := by
  constructor
  · intro h
    have hlen := h.length_le
    rw [List.length_drop, List.length_take_of_le hc] at hlen
    obtain ⟨hle, hoccurs⟩ := isPrefix_drop hc (h.trans (List.drop_suffix start _))
    exact ⟨count - piece.length, by omega, by omega, hoccurs⟩
  · rintro ⟨n, hle, rfl, hoccurs⟩
    refine List.suffix_of_suffix_length_le (isSuffix_take hoccurs) (List.drop_suffix start _) ?_
    rw [List.length_drop, List.length_take_of_le hc]
    omega

/-- A stretch of text with the next character. -/
theorem drop_take_concat {count start : Nat} (hc : count < text.length) (hs : start ≤ count) :
    (text.take count).drop start ++ [text[count]] = (text.take (count + 1)).drop start := by
  rw [List.take_succ_eq_append_getElem hc, List.drop_append_of_le_length]
  rw [List.length_take_of_le (Nat.le_of_lt hc)]
  exact hs

end Text

/-! ### Falling back -/

namespace Borders
variable {pattern : List Char} {table : List Nat} {c : Char}

/-- With `c` a matcher comes from `matched` to `next`, and looks up only what is there: it takes `c` if
the pattern goes on with it, and otherwise falls back to the entry of the table, or gives up where nothing
is matched. -/
inductive Settles (pattern : List Char) (table : List Nat) (c : Char) : (matched next : Nat) → Prop
  | takes {n : Nat} (hc : pattern[n]? = some c) : Settles pattern table c n (n + 1)
  | givesUp {d : Char} (hd : pattern[0]? = some d) (hne : d ≠ c) : Settles pattern table c 0 0
  | fallsBack {n k next : Nat} {d : Char} (hd : pattern[n + 1]? = some d) (hne : d ≠ c)
    (hk : table[n]? = some k) (hs : Settles pattern table c k next) :
    Settles pattern table c (n + 1) next

/-- Each time there is only one way to go on. -/
theorem Settles.unique {matched next next' : Nat} (h : Settles pattern table c matched next)
    (h' : Settles pattern table c matched next') : next' = next := by
  induction h with
  | takes hc =>
    cases h' with
    | takes => rfl
    | givesUp hd hne => exact absurd (Option.some.inj (hd.symm.trans hc)) hne
    | fallsBack hd hne => exact absurd (Option.some.inj (hd.symm.trans hc)) hne
  | givesUp hd hne =>
    cases h' with
    | takes hc => exact absurd (Option.some.inj (hd.symm.trans hc)) hne
    | givesUp => rfl
  | fallsBack hd hne hk hs ih =>
    cases h' with
    | takes hc => exact absurd (Option.some.inj (hd.symm.trans hc)) hne
    | fallsBack hd' hne' hk' hs' =>
      obtain rfl := Option.some.inj (hk.symm.trans hk')
      exact ih hs'

/-- Falling back ends, because every border is shorter than what it borders. -/
theorem settles_advance {borders : Borders} {matched : Nat} (hp : matched < pattern.length)
    (ht : matched ≤ borders.lengths.length) :
    Settles pattern borders.lengths c matched (borders.advance pattern c matched) := by
  have hother : ∀ {n : Nat} (hn : n < pattern.length), ¬pattern[n]? = some c →
      ∃ d, pattern[n]? = some d ∧ d ≠ c := fun hn hne =>
    ⟨_, List.getElem?_eq_getElem hn, fun hd => hne (hd ▸ List.getElem?_eq_getElem hn)⟩
  fun_induction advance pattern borders c matched with
  | case1 n hc => exact .takes hc
  | case2 hne =>
    obtain ⟨d, hd, hdc⟩ := hother hp hne
    exact .givesUp hd hdc
  | case3 n k hk hne ih =>
    obtain ⟨d, hd, hdc⟩ := hother hp hne
    have hle := borders.shorter n k hk
    exact .fallsBack hd hdc hk (ih (by omega) (by omega))
  | case4 n hk hne =>
    have := List.getElem?_eq_none_iff.1 hk
    omega

/-- Every entry but the first is where a matcher comes to from the entry in front with the next character
of the pattern, and the entries up to there are all that it takes. -/
structure Tabulated (pattern : List Char) (table : List Nat) : Prop where
  first : ∀ k ∈ table.head?, k = 0
  next : ∀ n k next c, table[n]? = some k → table[n + 1]? = some next → pattern[n + 1]? = some c →
    Settles pattern (table.take (n + 1)) c k next

theorem tabulated_extend {borders : Borders} (h : Tabulated pattern borders.lengths)
    (hc : pattern[borders.lengths.length]? = some c) :
    Tabulated pattern (borders.extend pattern c).lengths := by
  obtain ⟨hlt, -⟩ := List.getElem?_eq_some_iff.1 hc
  unfold extend
  dsimp only
  constructor
  · cases hl : borders.lengths with
    | nil =>
      intro k hk
      cases hk
      unfold Borders.next
      rw [hl]
      rfl
    | cons first rest =>
      rw [List.cons_append]
      exact fun k hk => h.first k (hl ▸ hk)
  · intro n k next d hk hnext hd
    obtain ⟨hn, -⟩ := List.getElem?_eq_some_iff.1 hnext
    rw [List.length_append, List.length_singleton] at hn
    rw [List.getElem?_append_left (by omega)] at hk
    rw [List.take_append_of_le_length (by omega)]
    rcases Nat.lt_or_eq_of_le (Nat.le_of_lt_succ hn) with hold | hnew
    · rw [List.getElem?_append_left hold] at hnext
      exact h.next n k next d hk hnext hd
    · rw [hnew, List.getElem?_concat_length] at hnext
      rw [hnew, hc] at hd
      cases hd
      cases hnext
      have hlast : borders.lengths.getLast? = some k := by
        rw [List.getLast?_eq_getElem?, ← hnew]
        exact hk
      have hshort := borders.shorter n k hk
      unfold Borders.next
      rw [hlast, hnew, List.take_length]
      exact settles_advance (by omega) (by omega)

/-- The entry of a prefix is its longest border. -/
theorem Exact.isGreatest {borders : Borders} (h : borders.Exact pattern) {n k : Nat}
    (hk : borders.lengths[n]? = some k) :
    IsGreatest {j | j ≤ n ∧ pattern.take j <:+ pattern.take (n + 1)} k :=
  ⟨⟨borders.shorter n k hk, h.isSuffix n k hk⟩, fun j ⟨hj, hs⟩ => h.le_of_isSuffix n k hk j hj hs⟩

theorem tabulated_ofPattern (pattern : List Char) : Tabulated pattern (ofPattern pattern).lengths :=
  (ofPattern_induction (P := fun borders => Tabulated pattern borders.lengths)
    ⟨fun k hk => by simp at hk, fun n k next c hk => by simp at hk⟩
    fun _ _ hc h => tabulated_extend h hc).1

end Borders

/-! ### The matcher -/

namespace Matcher
variable {pattern : List Char}

/-- The matcher that was fed a text. -/
def fed (m : Matcher) (text : List Char) : Matcher :=
  text.foldl (fun m c => (m.feed c).2) m

theorem fed_concat (m : Matcher) (text : List Char) (c : Char) :
    m.fed (text ++ [c]) = ((m.fed text).feed c).2 := by
  unfold fed
  rw [List.foldl_append]
  rfl

/-- The longest proper prefix of the delimiter that the text ends with is matched. -/
theorem Follows.isGreatest {m : Matcher} {text : List Char} (h : m.Follows text) (hn : m.pattern ≠ []) :
    IsGreatest {k | k < m.pattern.length ∧ m.pattern.take k <:+ text} m.matched :=
  ⟨⟨h.lt_length hn, h.longest.isSuffix⟩, fun k ⟨hk, hs⟩ =>
    h.longest.le_of_isSuffix k (Nat.le_of_lt hk) hs⟩

/-- A matcher hits just if what it was fed since it started over ends with the delimiter. -/
theorem Follows.hit_iff {m : Matcher} {fed : List Char} (h : m.Follows fed) (hn : m.pattern ≠ [])
    (c : Char) : (m.feed c).1 = true ↔ m.pattern <:+ fed ++ [c] := by
  rcases h.feed hn c with ⟨hs, hfeed⟩ | ⟨hs, matched, hfeed, -⟩
  · rw [hfeed]
    exact ⟨fun _ => hs, fun _ => rfl⟩
  · rw [hfeed]
    exact ⟨fun hf => absurd hf Bool.false_ne_true, fun hc => absurd hc hs⟩

/-- A matcher that was fed the text up to some place has followed the search since it started over. -/
theorem exists_since (hn : pattern ≠ []) (text : List Char) {count : Nat} (hc : count ≤ text.length) :
    ∃ start matched, Text.Since pattern text count start ∧
      (ofPattern pattern).fed (text.take count) = { ofPattern pattern with matched } ∧
      ({ ofPattern pattern with matched } : Matcher).Follows ((text.take count).drop start) := by
  induction count with
  | zero => exact ⟨0, 0, .zero hn, rfl, follows_ofPattern pattern⟩
  | succ count ih =>
    obtain ⟨start, matched, hsince, hfed, hfollows⟩ := ih (Nat.le_of_succ_le hc)
    have hdrop := Text.drop_take_concat hc hsince.le
    have hends := Text.isSuffix_drop_take_iff pattern hc (Nat.le_succ_of_le hsince.le)
    rw [List.take_succ_eq_append_getElem hc, fed_concat, hfed]
    rcases hfollows.feed hn text[count] with ⟨hs, hfeed⟩ | ⟨hs, matched', hfeed, hnext⟩
    · rw [hdrop] at hs
      obtain ⟨n, hle, hend, hoccurs⟩ := hends.1 hs
      rw [hfeed, ← List.take_succ_eq_append_getElem hc]
      refine ⟨count + 1, 0, hsince.hit hn hend hle hoccurs, rfl, ?_⟩
      rw [List.drop_eq_nil_of_le (List.length_take_le _ _)]
      exact follows_ofPattern pattern
    · rw [hdrop] at hs hnext
      rw [hfeed, ← List.take_succ_eq_append_getElem hc]
      exact ⟨start, matched', hsince.miss fun h => hs (hends.2 h), rfl, hnext⟩

/-- It hits with the next character just if a leftmost occurrence ends there. -/
theorem hit_iff_leftmost (hn : pattern ≠ []) (text : List Char) {count : Nat} (hc : count < text.length) :
    (((ofPattern pattern).fed (text.take count)).feed text[count]).1 = true ↔
      ∃ n, Text.Leftmost pattern text n ∧ n + pattern.length = count + 1 := by
  obtain ⟨start, matched, hsince, hfed, hfollows⟩ := exists_since hn text (Nat.le_of_lt hc)
  have hends := Text.isSuffix_drop_take_iff pattern hc (Nat.le_succ_of_le hsince.le)
  rw [hfed, hfollows.hit_iff hn, Text.drop_take_concat hc hsince.le]
  refine hends.trans ⟨?_, ?_⟩
  · rintro ⟨n, hle, hend, hoccurs⟩
    exact ⟨n, (hsince.leftmost_iff hn hend).2 ⟨hle, hoccurs⟩, hend⟩
  · rintro ⟨n, hleftmost, hend⟩
    obtain ⟨hle, hoccurs⟩ := (hsince.leftmost_iff hn hend).1 hleftmost
    exact ⟨n, hle, hend, hoccurs⟩

/-- **A matcher hits at the leftmost occurrences that do not overlap.** Fed any text, it hits with the last
character of each of them and with no other. At any place in the text it has matched the longest proper
prefix of the delimiter that the text ends with since the search last started over, so less than the
delimiter. Whatever character comes next there, it falls back until it settles at one place, and looks up
only what is there. The table that it looks into was made in this way, and has the longest border of every
prefix. -/
theorem hits_leftmost_occurrences (hn : pattern ≠ []) (text : List Char) :
    let table := (Borders.ofPattern pattern).lengths
    let matcher := fun count => (ofPattern pattern).fed (text.take count)
    (∀ count (hc : count < text.length), ((matcher count).feed text[count]).1 = true ↔
      ∃ n, Text.Leftmost pattern text n ∧ n + pattern.length = count + 1) ∧
    (∀ count ≤ text.length, ∃ start,
      IsGreatest {s | Text.Restart pattern text s ∧ s ≤ count} start ∧
      IsGreatest {k | k < pattern.length ∧ pattern.take k <:+ (text.take count).drop start}
        (matcher count).matched) ∧
    (∀ count ≤ text.length, ∀ c, ∃ next,
      (∀ k, Borders.Settles pattern table c (matcher count).matched k ↔ k = next) ∧
      (matcher count).feed c = if next = pattern.length then (true, (matcher count).reset)
        else (false, { matcher count with matched := next })) ∧
    table.length = pattern.length ∧ Borders.Tabulated pattern table ∧
    ∀ n k, table[n]? = some k →
      IsGreatest {j | j ≤ n ∧ pattern.take j <:+ pattern.take (n + 1)} k := by
  intro table matcher
  obtain ⟨hexact, hlength⟩ := Borders.exact_ofPattern pattern
  refine ⟨fun count hc => hit_iff_leftmost hn text hc, fun count hc => ?_, fun count hc c => ?_, hlength,
    Borders.tabulated_ofPattern pattern, fun n k hk => hexact.isGreatest hk⟩
  · obtain ⟨start, matched, hsince, hfed, hfollows⟩ := exists_since hn text hc
    dsimp only [matcher]
    rw [hfed]
    exact ⟨start, hsince.isGreatest hn, hfollows.isGreatest hn⟩
  · obtain ⟨start, matched, hsince, hfed, hfollows⟩ := exists_since hn text hc
    have hlt : matched < pattern.length := hfollows.lt_length hn
    have hsettles : Borders.Settles pattern table c matched _ :=
      Borders.settles_advance hlt (by rw [hlength]; exact Nat.le_of_lt hlt)
    dsimp only [matcher]
    rw [hfed]
    exact ⟨_, fun k => ⟨hsettles.unique, fun hk => hk ▸ hsettles⟩, feed_of_nonempty hn c⟩

/-- A delimiter that overlaps itself by two characters, three times in a row: the one in the middle is
passed over, and what the first two share does not count for the second. -/
theorem hits_leftmost_occurrences_of_overlap :
    let pattern := "aabaa".toList
    let text := "aabaabaabaa".toList
    pattern ≠ [] ∧ Text.Leftmost pattern text 0 ∧ ¬Text.Leftmost pattern text 3 ∧
      Text.Leftmost pattern text 6 ∧ pattern <+: text.drop 3 ∧
      ((ofPattern pattern).fed (text.take 6)).matched = 0 ∧
      (Borders.ofPattern pattern).lengths = [0, 1, 0, 1, 2] := by
  intro pattern text
  have hn : pattern ≠ [] := by decide
  obtain ⟨hhits, -⟩ := hits_leftmost_occurrences hn text
  have hfound : ∀ n, Text.Leftmost pattern text n →
      ∀ count (hc : count < text.length), n + pattern.length = count + 1 →
        (((ofPattern pattern).fed (text.take count)).feed text[count]).1 = true :=
    fun n hl count hc he => (hhits count hc).2 ⟨n, hl, he⟩
  refine ⟨hn, ?_, fun h => absurd (hfound 3 h 7 (by decide) rfl) (by decide +kernel), ?_, by decide,
    by decide +kernel, by decide +kernel⟩
  · obtain ⟨n, hl, he⟩ := (hhits 4 (by decide)).1 (by decide +kernel)
    obtain rfl : n = 0 := Nat.add_right_cancel (he.trans rfl)
    exact hl
  · obtain ⟨n, hl, he⟩ := (hhits 10 (by decide)).1 (by decide +kernel)
    obtain rfl : n = 6 := Nat.add_right_cancel (he.trans rfl)
    exact hl

end Matcher

end Stencil
