import Stencil.Proofs.Literals
import Stencil.Proofs.Nesting

/-! Values that are escaped.

A text has a left delimiter replaced by one behind a backslash wherever one occurs. Where backslashes count
and the delimiter has none in it, such a text is literal as a whole, and what it says is what was escaped
(`Text.literalFront_escaped`). So a value that was escaped is written as it was before, whether it had
delimiters in it or not (`Rendering.expand_escaped`). -/
namespace Stencil

/-! ### Replaced occurrences -/

namespace Text
variable {piece replacement text : List Char} {n : Nat}

/-- What is left of an occurrence is passed over. -/
theorem replaceSkipping_eq (skip : Nat) :
    replaceSkipping piece replacement skip text = replace piece replacement (text.drop skip) := by
  induction skip generalizing text with
  | zero => rfl
  | succ skip ih =>
    cases text with
    | nil => rfl
    | cons c rest => exact ih

theorem replace_of_find?_eq_none (h : find? piece text = none) : replace piece replacement text = text := by
  induction text with
  | nil => rfl
  | cons c rest ih =>
    unfold find? at h
    split at h
    · cases h
    · next hp =>
      rw [replace, replaceSkipping, if_neg hp]
      exact congrArg (c :: ·) (ih (Option.map_eq_none_iff.1 h))

/-- The leftmost occurrence is replaced, and then those behind it. -/
theorem replace_of_find?_eq_some (hn : piece ≠ []) (h : find? piece text = some n) :
    replace piece replacement text =
      text.take n ++ replacement ++ replace piece replacement (text.drop (n + piece.length)) := by
  induction text generalizing n with
  | nil =>
    obtain ⟨hle, hpos⟩ := find?_add_length_le hn h
    rw [List.length_nil] at hle
    omega
  | cons c rest ih =>
    unfold find? at h
    split at h
    · next hp =>
      cases h
      obtain ⟨p, more, rfl⟩ := List.exists_cons_of_ne_nil hn
      rw [replace, replaceSkipping, if_pos hp, replaceSkipping_eq, Nat.zero_add, List.length_cons,
        Nat.add_sub_cancel, List.drop_succ_cons]
      rfl
    · next hp =>
      obtain ⟨k, hk, rfl⟩ := Option.map_eq_some_iff.1 h
      rw [replace, replaceSkipping, if_neg hp, Nat.add_right_comm, List.take_succ_cons, List.drop_succ_cons]
      exact congrArg (c :: ·) (ih hk)

/-- Where a piece occurs and not in front of that, it is found. -/
theorem find?_eq_some_of_least (h : piece <+: text.drop n)
    (hleast : ∀ m, m < n → ¬piece <+: text.drop m) : find? piece text = some n := by
  cases hf : find? piece text with
  | none => exact absurd h (find?_eq_none hf n)
  | some k =>
    obtain ⟨hfound, hfirst⟩ := find?_eq_some hf
    rcases Nat.lt_trichotomy k n with hlt | rfl | hlt
    · exact absurd hfound (hleast k hlt)
    · rfl
    · exact absurd h (hfirst n hlt)

/-- A piece ends in front of a character that it does not have. -/
theorem isPrefix_of_notMem {front back : List Char} {c : Char} (hc : c ∉ piece)
    (h : piece <+: front ++ c :: back) : piece <+: front := by
  rcases Nat.lt_or_ge front.length piece.length with hlt | hle
  · refine absurd ?_ hc
    have hfront : front ++ [c] <+: piece := by
      refine List.prefix_of_prefix_length_le ⟨back, ?_⟩ h ?_
      · rw [List.append_assoc]
        rfl
      · rw [List.length_append]
        exact hlt
    exact hfront.subset (List.mem_append_right front List.mem_cons_self)
  · exact List.prefix_of_prefix_length_le h (List.prefix_append front (c :: back)) hle

/-! ### Escaped texts -/

/-- A text with a backslash in front of every left delimiter. -/
def escaped (left text : List Char) : List Char :=
  replace left (Quoting.escape :: left) text

variable {left : List Char}

/-- The leftmost delimiter of an escaped text is the one behind the first backslash that was put in. -/
theorem find?_escaped (hn : left ≠ []) (hb : Quoting.escape ∉ left) (h : find? left text = some n)
    (more : List Char) :
    find? left (text.take n ++ Quoting.escape :: (left ++ more)) = some ((text.take n).length + 1) := by
  obtain ⟨hle, -⟩ := find?_add_length_le hn h
  obtain ⟨-, hleast⟩ := find?_eq_some h
  have hlen : (text.take n).length = n := List.length_take_of_le (by omega)
  refine find?_eq_some_of_least ?_ fun m hm hp => ?_
  · rw [List.drop_length_add_append]
    exact List.prefix_append left more
  · rw [List.drop_append_of_le_length (Nat.le_of_lt_succ hm)] at hp
    have hfront := isPrefix_of_notMem hb hp
    rw [hlen] at hm
    rw [List.drop_take] at hfront
    rcases Nat.lt_or_eq_of_le (Nat.le_of_lt_succ hm) with hlt | rfl
    · exact hleast m hlt (hfront.trans (List.take_prefix _ _))
    · rw [Nat.sub_self, List.take_zero] at hfront
      exact hn (List.prefix_nil.1 hfront)

theorem escaped_of_find?_eq_none (h : find? left text = none) : escaped left text = text :=
  replace_of_find?_eq_none h

theorem escaped_of_find?_eq_some (hn : left ≠ []) (h : find? left text = some n) :
    escaped left text =
      text.take n ++ Quoting.escape :: (left ++ escaped left (text.drop (n + left.length))) := by
  rw [escaped, replace_of_find?_eq_some hn h, List.append_assoc]
  rfl

/-- A text has delimiters just if it has when it is escaped. -/
theorem contains_escaped (hn : left ≠ []) (hb : Quoting.escape ∉ left) (text : List Char) :
    contains left (escaped left text) = contains left text := by
  cases h : find? left text with
  | none => rw [escaped_of_find?_eq_none h]
  | some n =>
    rw [escaped_of_find?_eq_some hn h, contains, contains, h, find?_escaped hn hb h]
    rfl

/-- Without a delimiter a text is literal. -/
theorem literalFront_of_find?_eq_none (h : find? left text = none) (escapes : Bool) (before : List Char) :
    literalFront left escapes before text = (before ++ text, none) := by
  unfold literalFront
  split
  · rfl
  · split
    · rfl
    · next hsome => cases h.symm.trans hsome

/-- A delimiter right behind a backslash is literal. -/
theorem literalFront_behind_escape (hn : left ≠ []) {front back : List Char}
    (h : find? left (front ++ Quoting.escape :: (left ++ back)) = some (front.length + 1))
    (before : List Char) :
    literalFront left true before (front ++ Quoting.escape :: (left ++ back)) =
      literalFront left true (before ++ front ++ left) back := by
  have hsplit : front ++ Quoting.escape :: (left ++ back) =
      (front ++ [Quoting.escape]) ++ (left ++ back) := by
    rw [List.append_assoc]
    rfl
  have hlen : front.length + 1 = (front ++ [Quoting.escape]).length := by
    rw [List.length_append]
    rfl
  rw [literalFront, dif_neg hn]
  split
  · next hnone => cases h.symm.trans hnone
  · next n hsome =>
    cases h.symm.trans hsome
    dsimp only
    rw [hsplit, hlen, List.take_left, ← List.drop_drop, List.drop_left, List.drop_left,
      ← List.append_assoc, List.getLast?_concat, if_pos (by rfl), List.dropLast_concat]

/-- An escaped text is literal, and says what was escaped. -/
theorem literalFront_escaped (hn : left ≠ []) (hb : Quoting.escape ∉ left) (before text : List Char) :
    literalFront left true before (escaped left text) = (before ++ text, none) := by
  cases h : find? left text with
  | none => rw [escaped_of_find?_eq_none h, literalFront_of_find?_eq_none h]
  | some n =>
    have hle := find?_add_length_le hn h
    have htake : text.take (n + left.length) = text.take n ++ left := by
      rw [List.take_add, ← List.prefix_iff_eq_take.1 (find?_eq_some h).1]
    rw [escaped_of_find?_eq_some hn h, literalFront_behind_escape hn (find?_escaped hn hb h _),
      literalFront_escaped hn hb, List.append_assoc before, ← htake, List.append_assoc,
      List.take_append_drop]
termination_by text.length
decreasing_by
  rw [List.length_drop]
  omega

end Text

namespace TextScan

/-- A scan that minds backslashes finds nothing in an escaped text, and holds what was escaped. -/
theorem scan_of_escaped {left : List Char} (hn : left ≠ []) (hb : Quoting.escape ∉ left)
    (text : List Char) : ((escaping left).scan (Text.escaped left text)).found = false ∧
      ((escaping left).scan (Text.escaped left text)).scan.held.reverse = text := by
  have hfollows : (escaping left).left.Follows [] := Matcher.follows_ofPattern left
  have hfront := Text.literalFront_escaped hn hb [] text
  obtain ⟨hheld, hfound⟩ := scan_eq hfollows (Text.escaped left text)
  have hfront : Text.literalFront (escaping left).left.pattern (escaping left).escapes
      (escaping left).held.reverse (Text.escaped left text) = (text, none) := hfront
  rw [hfront] at hheld hfound
  exact ⟨hfound, hheld⟩

end TextScan

/-! ### Values -/

namespace Rendering
variable {κ σ : Type} {r : Rendering κ σ}

/-- A passage in which no block is open is left for the one that it stands in. -/
theorem leave_of_opened {passage : Passage σ} {outer : List (Passage σ)}
    (h : r.state.frames.length ≤ r.passage.opened) (ho : r.outer = passage :: outer) :
    r.leave = .running { r with passage, outer } := by
  have hdone : leave.done r = .running { r with passage, outer } := by
    unfold leave.done
    rw [ho]
  unfold leave
  cases hf : r.state.frames with
  | nil => exact hdone
  | cons top below =>
    rw [hf] at h
    exact (if_neg (Nat.not_lt_of_le h)).trans hdone

variable [CharSource σ] {text : List Char}

theorem span_of_whole (h : r.passage.window.Whole text) {place : Nat}
    (hp : r.passage.window.cursor = place) : r.span = (.ok (text.drop place), r) := by
  rw [Rendering.span, h.span, hp]
  rfl

/-- Going through a text that is all there and has no left delimiter that counts. -/
theorem passText_of_whole (h : r.passage.window.Whole text) (hcursor : r.passage.window.cursor = 0)
    {scan : TextScan} (hfound : (scan.scan text).found = false)
    (hlive : r.state.frames.suppressed = false)
    (hroom : (r.sink.write (scan.scan text).scan.held.reverse).1 = .ok ()) :
    r.passText scan = (.ok false, { r.advance text.length with
      sink := (r.sink.write (scan.scan text).scan.held.reverse).2 }) := by
  have hspan := span_of_whole h hcursor
  rw [List.drop_zero] at hspan
  cases text with
  | nil => exact passText_of_end scan hspan hlive hroom
  | cons c cs =>
    generalize htaken : (scan.scan (c :: cs)).scan.take (scan.scan (c :: cs)).scan.left.matched = taken
    have hheld : (scan.scan (c :: cs)).scan.held.reverse = taken.1 ++ (taken.2.take 0).1 := by
      rw [← htaken]
      exact (List.reverse_append.symm.trans (congrArg _ (List.take_append_drop ..))).symm
    rw [hheld] at hroom ⊢
    obtain ⟨htakes, hmore⟩ := Sink.write_append hroom
    rw [passText_of_missed hspan hlive hfound htaken htakes]
    -- Behind the text the window is at its end, and what was held back is written.
    have hplace : r.passage.window.cursor + (c :: cs).length = (c :: cs).length := by
      rw [hcursor, Nat.zero_add]
    have hwhole : (r.passage.window.advance (c :: cs).length).Whole (c :: cs) :=
      ⟨h.supply, h.segments, Nat.le_of_eq hplace⟩
    have hend := span_of_whole
      (r := { r.advance (c :: cs).length with sink := (r.sink.write taken.1).2 }) hwhole hplace
    rw [List.drop_length] at hend
    rw [← hmore] at hroom ⊢
    exact passText_of_end taken.2 hend hlive hroom

/-- **A value that was escaped is written as it was.** Let a left delimiter that is not empty and has no
backslash in it be made literal wherever it occurs in a value. Where there is none, the value is written
at once; where there is one, it becomes a passage of its own, whose first step writes the value and
leaves the passage, and the rendering goes on from there. Either way, where output is not withheld, the passage could be deeper and the sink
takes the value, nothing is different afterwards but that the value was written: no token was counted,
and the open blocks and the variables are what they were. -/
theorem expand_escaped {host : Host κ} (hn : host.left ≠ []) (hb : Quoting.escape ∉ host.left)
    (hlevel : r.passage.level < host.options.maxDepth) (hlive : r.state.frames.suppressed = false)
    {value : List Char} (hroom : (r.sink.write value).1 = .ok ()) (id : Nat) :
    let escaped := Text.escaped host.left value
    let done : Rendering κ σ := { r with sink := (r.sink.write value).2 }
    if Text.contains host.left value then
      expand host r escaped id = .running (r.enter escaped id) ∧
        ∀ steps, (r.enter escaped id).runNested host r.outer.length (steps + 1) = .finished done ∧
          (r.enter escaped id).run host (steps + 1) = done.run host steps
    else expand host r escaped id = .running done := by
  intro escaped done
  by_cases hc : Text.contains host.left value = true
  · have hcontains : Text.contains host.left escaped = true := (Text.contains_escaped hn hb value).trans hc
    rw [if_pos hc]
    refine ⟨?_, fun steps => ?_⟩
    · rw [expand, if_pos hcontains, if_neg (by omega)]
    · obtain ⟨hfound, hheld⟩ := TextScan.scan_of_escaped hn hb value
      have hscan : textScan host (r.enter escaped id).passage.level = .escaping host.left :=
        if_neg (Nat.succ_ne_zero _)
      have htext := passText_of_whole (r := r.enter escaped id) (Window.whole_fixed escaped) rfl hfound
        hlive (by rw [hheld]; exact hroom)
      rw [hheld] at htext
      have hstep : (r.enter escaped id).step host = .running done := by
        rw [step, hscan, htext]
        exact leave_of_opened (Nat.le_refl _) rfl
      refine ⟨?_, run_of_running hstep steps⟩
      rw [runNested_succ, hstep]
      exact if_neg (Nat.lt_irrefl _)
  · have hnone : Text.find? host.left value = none := by
      rw [Text.contains, Bool.not_eq_true, Option.isSome_eq_false_iff, Option.isNone_iff_eq_none] at hc
      exact hc
    have hescaped : escaped = value := Text.escaped_of_find?_eq_none hnone
    have hwrite : r.write value = (.ok (), done) := Prod.ext hroom rfl
    rw [if_neg hc, hescaped, expand, if_neg hc, emit, hwrite]

/-- A value with a backslash in front of a run of brackets that overlap as delimiters. -/
theorem expand_escaped_of_brackets :
    let host : Host Unit := { options := { delimiters := .doubleBracket } }
    let r : Rendering Unit TextSource :=
      { passage := { level := 0, window := .fixed [] }
        state := { vars := {}, memory := () }
        pool := { maxIdle := 0 } }
    let value := "\\[[[[[x".toList
    let escaped := "\\\\[[\\[[[x".toList
    Text.escaped host.left value = escaped ∧
      expand host r escaped 1 = .running (r.enter escaped 1) ∧
      (r.enter escaped 1).runNested host 0 1 =
        .finished { r with sink := { text := "\\[[[[[x" } } ∧
      (r.enter escaped 1).run host 1 = .running { r with sink := { text := "\\[[[[[x" } } := by
  intro host r value escaped
  have hescaped : Text.escaped host.left value = escaped := by decide
  have hcontains : Text.contains host.left value = true := by decide
  have hexpand := @expand_escaped Unit TextSource r _ host (by decide) (by decide) (by decide) rfl value rfl 1
  rw [if_pos hcontains, hescaped] at hexpand
  exact ⟨hescaped, hexpand.1, hexpand.2 0⟩

end Rendering

end Stencil
