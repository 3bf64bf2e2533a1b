import Stencil.Delimiter.Scan
import Stencil.Proofs.Matcher

/-! Scans, wherever their text is cut.

A scan of a text in two pieces is a scan of the whole (`scanWith_append`). What a text scan finds is
behind a left delimiter, and what a close scan finds is a token and the right delimiter behind it.
Literal text that is taken away between two pieces is not missed later (`TextScan.Flushable.scan`). -/
namespace Stencil

/-! ### Any scan -/

section
variable {σ : Type} {feed : σ → Char → Bool × σ}

theorem scanWith_start (count : Nat) (s : σ) (text : List Char) :
    scanWith feed count s text =
      { scanWith feed 0 s text with consumed := count + (scanWith feed 0 s text).consumed } := by
  induction text generalizing count s with
  | nil => rfl
  | cons c rest ih =>
    unfold scanWith
    cases feed s c with
    | mk hit s' =>
      cases hit with
      | true => rfl
      | false =>
        simp only
        rw [ih (count + 1), ih (0 + 1)]
        simp only [Scanned.mk.injEq, and_self, and_true]
        omega

theorem scanWith_hit {s s' : σ} {c : Char} (h : feed s c = (true, s')) (rest : List Char) :
    scanWith feed 0 s (c :: rest) = ⟨1, true, s'⟩ := by
  rw [scanWith, h]

theorem scanWith_miss {s s' : σ} {c : Char} (h : feed s c = (false, s')) (rest : List Char) :
    scanWith feed 0 s (c :: rest) =
      { scanWith feed 0 s' rest with consumed := 1 + (scanWith feed 0 s' rest).consumed } := by
  rw [scanWith, h]
  exact scanWith_start (0 + 1) s' rest

/-- A scan that finds nothing uses up its text. -/
theorem consumed_of_not_found (s : σ) (text : List Char)
    (h : (scanWith feed 0 s text).found = false) :
    (scanWith feed 0 s text).consumed = text.length := by
  induction text generalizing s with
  | nil => rfl
  | cons c rest ih =>
    cases hf : feed s c with
    | mk hit s' =>
      cases hit with
      | true =>
        rw [scanWith_hit hf] at h
        cases h
      | false =>
        rw [scanWith_miss hf] at h ⊢
        rw [List.length_cons, Nat.add_comm, ← ih s' h]

theorem consumed_le_length (s : σ) (text : List Char) :
    (scanWith feed 0 s text).consumed ≤ text.length := by
  induction text generalizing s with
  | nil => exact Nat.le_refl _
  | cons c rest ih =>
    cases hf : feed s c with
    | mk hit s' =>
      cases hit with
      | true =>
        rw [scanWith_hit hf, List.length_cons]
        exact Nat.succ_le_succ (Nat.zero_le _)
      | false =>
        rw [scanWith_miss hf, List.length_cons]
        have := ih s'
        show 1 + (scanWith feed 0 s' rest).consumed ≤ rest.length + 1
        omega

theorem scanWith_append_of_found {s : σ} {text : List Char}
    (h : (scanWith feed 0 s text).found = true) (more : List Char) :
    scanWith feed 0 s (text ++ more) = scanWith feed 0 s text := by
  induction text generalizing s with
  | nil => cases h
  | cons c rest ih =>
    cases hf : feed s c with
    | mk hit s' =>
      cases hit with
      | true => rw [List.cons_append, scanWith_hit hf, scanWith_hit hf]
      | false =>
        rw [scanWith_miss hf] at h
        rw [List.cons_append, scanWith_miss hf, scanWith_miss hf, ih h]

/-- A scan goes on with the next piece where it stopped. -/
theorem scanWith_append {s : σ} {text : List Char}
    (h : (scanWith feed 0 s text).found = false) (more : List Char) :
    scanWith feed 0 s (text ++ more) =
      { scanWith feed 0 (scanWith feed 0 s text).scan more with
        consumed :=
          text.length + (scanWith feed 0 (scanWith feed 0 s text).scan more).consumed } := by
  induction text generalizing s with
  | nil => simp only [List.nil_append, scanWith, List.length_nil, Nat.zero_add]
  | cons c rest ih =>
    cases hf : feed s c with
    | mk hit s' =>
      cases hit with
      | true =>
        rw [scanWith_hit hf] at h
        cases h
      | false =>
        rw [scanWith_miss hf] at h ⊢
        rw [List.cons_append, scanWith_miss hf, ih h]
        simp only [List.length_cons, Scanned.mk.injEq, and_self, and_true]
        omega

/-- What every miss keeps true of the characters fed so far is true when the scan stops, or when the
last character is fed that completes a find. -/
theorem scanWith_invariant {P : σ → List Char → Prop}
    (hstep : ∀ s fed c s', P s fed → feed s c = (false, s') → P s' (fed ++ [c]))
    {s : σ} {fed : List Char} (h : P s fed) (text : List Char) :
    ((scanWith feed 0 s text).found = false → P (scanWith feed 0 s text).scan (fed ++ text)) ∧
      ((scanWith feed 0 s text).found = true →
        ∃ before c s', text.take (scanWith feed 0 s text).consumed = before ++ [c] ∧
          P s' (fed ++ before) ∧ feed s' c = (true, (scanWith feed 0 s text).scan)) := by
  induction text generalizing s fed with
  | nil => exact ⟨fun _ => by rw [List.append_nil]; exact h, nofun⟩
  | cons c rest ih =>
    cases hf : feed s c with
    | mk hit s' =>
      cases hit with
      | true =>
        rw [scanWith_hit hf]
        exact ⟨nofun, fun _ => ⟨[], c, s, rfl, by rw [List.append_nil]; exact h, hf⟩⟩
      | false =>
        rw [scanWith_miss hf]
        obtain ⟨hmiss, hhit⟩ := ih (hstep s fed c s' h hf)
        rw [List.append_assoc] at hmiss
        refine ⟨hmiss, fun hfound => ?_⟩
        obtain ⟨before, c', t, ht, hP, he⟩ := hhit hfound
        refine ⟨c :: before, c', t, ?_, ?_, he⟩
        · show (c :: rest).take (1 + (scanWith feed 0 s' rest).consumed) = _
          rw [Nat.add_comm, List.take_succ_cons, ht]
          rfl
        · rw [List.append_assoc] at hP
          exact hP

end

/-! ### Text scans -/

namespace TextScan

/-- The matcher looks for `left` and follows the characters fed since its last hit. -/
def Follows (left : List Char) (s : TextScan) (fed : List Char) : Prop :=
  s.left.pattern = left ∧ ∃ front back, fed = front ++ back ∧ s.left.Follows back

theorem follows_plain (left fed : List Char) : (plain left).Follows left fed :=
  ⟨rfl, fed, [], (List.append_nil _).symm, Matcher.follows_ofPattern left⟩

theorem follows_escaping (left fed : List Char) : (escaping left).Follows left fed :=
  ⟨rfl, fed, [], (List.append_nil _).symm, Matcher.follows_ofPattern left⟩

theorem Follows.miss {left fed : List Char} {s s' : TextScan} {c : Char} (h : s.Follows left fed)
    (hf : s.feed c = (false, s')) : s'.Follows left (fed ++ [c]) := by
  obtain ⟨hl, front, back, rfl, hb⟩ := h
  unfold TextScan.feed at hf
  split at hf
  · next m hm =>
    cases hf
    obtain ⟨hfollows, matched, rfl⟩ := hb.of_miss hm
    exact ⟨hl, front, back ++ [c], List.append_assoc .., hfollows⟩
  · next m hm =>
    obtain ⟨_, rfl⟩ := hb.of_hit hm
    dsimp only at hf
    split at hf
    · cases hf
    · split at hf
      · cases hf
        exact ⟨hl, front ++ back ++ [c], [], (List.append_nil _).symm, hb.reset⟩
      · cases hf

theorem Follows.hit {left fed : List Char} {s s' : TextScan} {c : Char} (h : s.Follows left fed)
    (hf : s.feed c = (true, s')) : left <:+ fed ++ [c] := by
  obtain ⟨rfl, front, back, rfl, hb⟩ := h
  unfold TextScan.feed at hf
  split at hf
  · cases hf
  · next m hm =>
    rw [List.append_assoc]
    exact List.suffix_append_of_suffix (hb.of_hit hm).1

/-- What is found is behind a left delimiter. -/
theorem Follows.scan {left fed : List Char} {s : TextScan} (h : s.Follows left fed)
    (text : List Char) :
    ((s.scan text).found = false → (s.scan text).scan.Follows left (fed ++ text)) ∧
      ((s.scan text).found = true → left <:+ fed ++ text.take (s.scan text).consumed) := by
  obtain ⟨hmiss, hhit⟩ := scanWith_invariant (P := Follows left)
    (fun _ _ _ _ h hf => h.miss hf) h text
  refine ⟨hmiss, fun hfound => ?_⟩
  obtain ⟨before, c, s', ht, hs, hf⟩ := hhit hfound
  have ht : text.take (s.scan text).consumed = before ++ [c] := ht
  rw [ht, ← List.append_assoc]
  exact hs.hit hf

/-- A scan that holds more literal text. -/
def above (s : TextScan) (old : List Char) : TextScan :=
  { s with held := s.held ++ old }

/-- Where no backslash counts, and what is matched is still held. -/
structure Flushable (s : TextScan) : Prop where
  plain : s.escapes = false
  matched_le : s.left.matched ≤ s.held.length

theorem feed_of_miss {s : TextScan} {c : Char} {left : Matcher} (h : s.left.feed c = (false, left)) :
    s.feed c = (false, { s with left, held := c :: s.held }) := by
  unfold TextScan.feed
  rw [h]

theorem feed_of_hit {s : TextScan} (hs : s.escapes = false) {c : Char} {left : Matcher}
    (h : s.left.feed c = (true, left)) :
    s.feed c = (true, { s with left, held := (c :: s.held).drop left.pattern.length }) := by
  unfold TextScan.feed
  rw [h]
  dsimp only
  cases (c :: s.held).drop left.pattern.length with
  | nil => rfl
  | cons last before =>
    rw [hs]
    rfl

theorem escapes_feed (s : TextScan) (c : Char) : (s.feed c).2.escapes = s.escapes := by
  unfold TextScan.feed
  split
  · rfl
  · dsimp only
    split
    · rfl
    · split <;> rfl

/-- What is held below does not matter to the next character, unless it is asked for a backslash. -/
theorem feed_above {s : TextScan} (hm : s.left.matched ≤ s.held.length) {old : List Char} {c : Char}
    (hb : (s.feed c).1 = true → s.escapes = true → s.left.matched = s.held.length →
      old.head? ≠ some Quoting.escape) :
    (s.above old).feed c = ((s.feed c).1, (s.feed c).2.above old) ∧
      (s.feed c).2.left.matched ≤ (s.feed c).2.held.length := by
  cases hl : s.left.feed c with
  | mk hit left =>
    have hlo : (s.above old).left.feed c = (hit, left) := hl
    cases hit with
    | false =>
      rw [feed_of_miss hlo, feed_of_miss hl]
      refine ⟨rfl, ?_⟩
      have := Matcher.matched_of_miss hl
      show left.matched ≤ (c :: s.held).length
      rw [List.length_cons]
      omega
    | true =>
      obtain ⟨hlen, rfl⟩ := Matcher.length_of_hit hl
      have hle : s.left.reset.pattern.length ≤ (c :: s.held).length :=
        Nat.le_trans hlen (Nat.succ_le_succ hm)
      have hdrop : (c :: (s.above old).held).drop s.left.reset.pattern.length =
          (c :: s.held).drop s.left.reset.pattern.length ++ old :=
        List.drop_append_of_le_length hle
      have htake : (c :: (s.above old).held).take s.left.reset.pattern.length =
          (c :: s.held).take s.left.reset.pattern.length :=
        List.take_append_of_le_length hle
      have habove : (s.above old).escapes = s.escapes := rfl
      unfold TextScan.feed at hb ⊢
      rw [hl] at hb ⊢
      rw [hlo]
      dsimp only at hb ⊢
      rw [hdrop, htake, habove]
      cases hd : (c :: s.held).drop s.left.reset.pattern.length with
      | nil =>
        -- The delimiter is all that is held, so what is in front of it is held below.
        rw [hd] at hb
        have hall : s.left.matched = s.held.length := by
          have hused := Nat.le_trans (List.drop_eq_nil_iff.1 hd) hlen
          exact Nat.le_antisymm hm (Nat.le_of_succ_le_succ hused)
        refine ⟨?_, Nat.zero_le _⟩
        cases old with
        | nil => rfl
        | cons last before =>
          rw [List.nil_append]
          dsimp only
          rw [if_neg]
          · rfl
          · intro he
            rw [Bool.and_eq_true, decide_eq_true_eq] at he
            exact hb rfl he.1 hall (congrArg some he.2)
      | cons last before =>
        dsimp only
        rw [List.cons_append]
        dsimp only
        split
        · refine ⟨?_, Nat.zero_le _⟩
          rw [← List.append_assoc]
          rfl
        · exact ⟨rfl, Nat.zero_le _⟩

/-- Where no backslash counts, it never is. -/
theorem Flushable.feed {s : TextScan} (h : s.Flushable) (old : List Char) (c : Char) :
    (s.above old).feed c = ((s.feed c).1, (s.feed c).2.above old) ∧ (s.feed c).2.Flushable := by
  obtain ⟨habove, hle⟩ := @feed_above s h.matched_le old c fun _ he _ => by
    rw [h.plain] at he
    cases he
  exact ⟨habove, (escapes_feed s c).trans h.plain, hle⟩

/-- Nor does it matter to what follows. -/
theorem Flushable.scan {s : TextScan} (h : s.Flushable) (old text : List Char) :
    (s.above old).scan text = { s.scan text with scan := (s.scan text).scan.above old } ∧
      (s.scan text).scan.Flushable := by
  unfold TextScan.scan
  induction text generalizing s with
  | nil => exact ⟨rfl, h⟩
  | cons c rest ih =>
    obtain ⟨ho, hf⟩ := h.feed old c
    cases he : s.feed c with
    | mk hit s' =>
      rw [he] at ho hf
      cases hit with
      | true =>
        rw [scanWith_hit ho, scanWith_hit he]
        exact ⟨rfl, hf⟩
      | false =>
        rw [scanWith_miss ho, scanWith_miss he, (ih hf).1]
        exact ⟨rfl, (ih hf).2⟩

/-- Taking literal text leaves what is still matched. -/
theorem Flushable.take {s : TextScan} (h : s.Flushable) :
    (s.take s.left.matched).2.Flushable ∧
      s = (s.take s.left.matched).2.above (s.held.drop s.left.matched) := by
  refine ⟨⟨h.plain, ?_⟩, ?_⟩
  · show s.left.matched ≤ (s.held.take s.left.matched).length
    exact Nat.le_of_eq (List.length_take_of_le h.matched_le).symm
  · show s = { s with held := s.held.take s.left.matched ++ s.held.drop s.left.matched }
    rw [List.take_append_drop]

theorem flushable_plain (left : List Char) : (plain left).Flushable :=
  ⟨rfl, Nat.zero_le _⟩

end TextScan

/-! ### Close scans -/

namespace CloseScan

/-- The scan looks for `right` and has collected the characters fed so far. -/
structure Follows (right : List Char) (s : CloseScan) (fed : List Char) : Prop where
  pattern : s.right.pattern = right
  text : s.text = fed
  /-- The matcher follows what was fed since it last started over. -/
  back : ∃ front back, fed = front ++ back ∧ s.right.Follows back
  /-- Inside quotes it has to start over. -/
  quoted : s.quoting ≠ .outside → s.right.reset = s.right

theorem follows_start (left right : List Char) : (start left right).Follows right [] :=
  ⟨rfl, rfl, ⟨[], [], rfl, Matcher.follows_ofPattern right⟩, fun h => absurd rfl h⟩

/-- A character outside quotes. -/
theorem Follows.feedOpen {right fed : List Char} {s s' : CloseScan} {c : Char} {found : Bool}
    (h : s.Follows right fed) (hq : s.quoting = .outside) (hf : s.feedOpen c = (found, s')) :
    if found then s'.text ++ right = fed ++ [c] else s'.Follows right (fed ++ [c]) := by
  obtain ⟨rfl, rfl, ⟨front, back, ht, hb⟩, _⟩ := h
  have hbody : (c :: s.body).reverse = s.text ++ [c] := List.reverse_cons
  unfold CloseScan.feedOpen at hf
  cases hr : s.right.feed c with
  | mk closes matcher =>
    cases ho : if s.nests then s.left.feed c else (false, s.left) with
    | mk opens left =>
      rw [hr, ho] at hf
      dsimp only at hf
      cases closes with
      | false =>
        obtain ⟨hfollows, matched, rfl⟩ := hb.of_miss hr
        rw [if_neg Bool.false_ne_true] at hf
        cases opens with
        | false =>
          cases hf
          exact ⟨rfl, hbody, ⟨front, back ++ [c], by rw [ht, List.append_assoc], hfollows⟩,
            fun hn => absurd hq hn⟩
        | true =>
          cases hf
          exact ⟨rfl, hbody, ⟨s.text ++ [c], [], (List.append_nil _).symm, hfollows.reset⟩,
            fun hn => absurd hq hn⟩
      | true =>
        obtain ⟨⟨t, hs⟩, rfl⟩ := hb.of_hit hr
        rw [if_pos rfl] at hf
        split at hf
        · cases hf
          have hrev : c :: s.body = s.right.pattern.reverse ++ (front ++ t).reverse := by
            rw [← List.reverse_append, List.append_assoc, hs, ← List.append_assoc, ← ht, ← hbody,
              List.reverse_reverse]
          show ((c :: s.body).drop s.right.pattern.length).reverse ++ s.right.pattern = _
          have hlen : s.right.pattern.length = s.right.pattern.reverse.length :=
            List.length_reverse.symm
          rw [hrev, hlen, List.drop_left,
            List.reverse_reverse, List.append_assoc, hs, ← List.append_assoc, ← ht]
        · cases hf
          exact ⟨rfl, hbody, ⟨s.text ++ [c], [], (List.append_nil _).symm, hb.reset⟩,
            fun hn => absurd hq hn⟩

/-- A character goes to the token, or completes the right delimiter behind it. -/
theorem Follows.feed {right fed : List Char} {s s' : CloseScan} {c : Char} {found : Bool}
    (h : s.Follows right fed) (hf : s.feed c = (found, s')) :
    if found then s'.text ++ right = fed ++ [c] else s'.Follows right (fed ++ [c]) := by
  have hbody : (c :: s.body).reverse = fed ++ [c] := by
    rw [List.reverse_cons, ← h.text]
    rfl
  obtain ⟨front, back, rfl, hb⟩ := h.back
  unfold CloseScan.feed at hf
  split at hf
  · next hq =>
    split at hf
    · cases hf
      exact ⟨h.pattern, hbody, ⟨front ++ back ++ [c], [], (List.append_nil _).symm, hb.reset⟩,
        fun _ => rfl⟩
    · exact h.feedOpen hq hf
  · next hq =>
    cases hf
    have hreset : s.right.Follows [] := h.quoted hq ▸ hb.reset
    exact ⟨h.pattern, hbody, ⟨front ++ back ++ [c], [], (List.append_nil _).symm, hreset⟩,
      fun _ => h.quoted hq⟩

/-- What is found is a token and the right delimiter behind it. -/
theorem Follows.scan {right fed : List Char} {s : CloseScan} (h : s.Follows right fed)
    (text : List Char) :
    ((s.scan text).found = false → (s.scan text).scan.Follows right (fed ++ text)) ∧
      ((s.scan text).found = true →
        (s.scan text).scan.text ++ right = fed ++ text.take (s.scan text).consumed) := by
  obtain ⟨hmiss, hhit⟩ := scanWith_invariant (P := Follows right)
    (fun _ _ _ _ h (hf : CloseScan.feed _ _ = _) => h.feed hf) h text
  refine ⟨hmiss, fun hfound => ?_⟩
  obtain ⟨before, c, s', ht, hs, hf⟩ := hhit hfound
  have ht : text.take (s.scan text).consumed = before ++ [c] := ht
  rw [ht, ← List.append_assoc]
  exact hs.feed hf

end CloseScan

end Stencil
