/-! Finding a delimiter one character at a time.

A matcher carries how much of the delimiter the characters fed so far end with. When the next
character does not go on with it, the matcher falls back to the next shorter border, a proper prefix
of what is matched that is also a suffix of it, so no character is ever looked at twice. A table of
the longest border of every prefix is made once for each delimiter. -/
namespace Stencil

/-- For every non-empty prefix of a pattern, shortest first, the length of its longest border. -/
structure Borders where
  /-- The entry of the prefix of length `n + 1` stands at position `n`. -/
  lengths : List Nat := []
  /-- A border is shorter than what it borders. -/
  shorter : ∀ n k : Nat, lengths[n]? = some k → k ≤ n := by simp

namespace Borders

/-- Where the matching of a pattern stands when `matched` characters of it are followed by `c`: the
longest border of them that goes on with `c`, itself included, and `c`; or nothing. -/
def advance (pattern : List Char) (borders : Borders) (c : Char) (matched : Nat) : Nat :=
  if pattern[matched]? = some c then matched + 1
  else
    match matched with
    | 0 => 0
    | n + 1 =>
      match _h : borders.lengths[n]? with
      | some k => advance pattern borders c k
      | none => 0
termination_by matched
decreasing_by exact Nat.lt_succ_of_le (borders.shorter n k ‹_›)

theorem advance_le (pattern : List Char) (borders : Borders) (c : Char) (matched : Nat) :
    borders.advance pattern c matched ≤ matched + 1 := by
  fun_induction advance pattern borders c matched with
  | case1 => omega
  | case2 => omega
  | case3 n k h _ ih => have := borders.shorter n k h; omega
  | case4 => omega

/-- The border of the next longer prefix, which ends in `c`. -/
def next (pattern : List Char) (borders : Borders) (c : Char) : Nat :=
  match borders.lengths.getLast? with
  | none => 0
  | some k => borders.advance pattern c k

theorem next_le (pattern : List Char) (borders : Borders) (c : Char) :
    borders.next pattern c ≤ borders.lengths.length := by
  unfold next
  split
  · omega
  · next k h =>
    have hk := borders.shorter (borders.lengths.length - 1) k (by rw [← h, List.getLast?_eq_getElem?])
    have hl : borders.lengths ≠ [] := by rintro e; simp [e] at h
    have := List.length_pos_iff.2 hl
    have := borders.advance_le pattern c k
    omega

/-- An entry that is no longer than the table keeps the table a table. -/
theorem shorter_append (borders : Borders) {entry : Nat} (he : entry ≤ borders.lengths.length)
    (n k : Nat) (h : (borders.lengths ++ [entry])[n]? = some k) : k ≤ n := by
  rcases Nat.lt_trichotomy n borders.lengths.length with hn | hn | hn
  · rw [List.getElem?_append_left hn] at h
    exact borders.shorter n k h
  · subst hn
    simp only [List.getElem?_concat_length, Option.some.injEq] at h
    exact h ▸ he
  · rw [List.getElem?_eq_none (by simp only [List.length_append, List.length_singleton]; omega)] at h
    simp at h

/-- The table with the entry of the next longer prefix, which ends in `c`. -/
def extend (pattern : List Char) (borders : Borders) (c : Char) : Borders where
  lengths := borders.lengths ++ [borders.next pattern c]
  shorter := borders.shorter_append (borders.next_le pattern c)

def ofPattern (pattern : List Char) : Borders :=
  pattern.foldl (extend pattern) {}

end Borders

/-- A delimiter that is being looked for. -/
structure Matcher where
  pattern : List Char
  borders : Borders
  /-- How many of its characters the text fed so far ends with. -/
  matched : Nat := 0

namespace Matcher

/-- Look for a delimiter. -/
def ofPattern (pattern : List Char) : Matcher :=
  { pattern, borders := .ofPattern pattern }

def reset (m : Matcher) : Matcher :=
  { m with matched := 0 }

/-- Feed one character. True is a hit: it completes the delimiter, and the search starts over after
it. The empty delimiter is never hit. -/
def feed (m : Matcher) (c : Char) : Bool × Matcher :=
  if m.pattern.isEmpty then (false, m)
  else
    let matched := m.borders.advance m.pattern c m.matched
    if matched = m.pattern.length then (true, m.reset)
    else (false, { m with matched })

/-- The characters at the end of the text fed so far that may yet become the delimiter. -/
def pending (m : Matcher) : List Char :=
  m.pattern.take m.matched

end Matcher

end Stencil
