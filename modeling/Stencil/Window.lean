import Stencil.Error
import Stencil.Pool
import Stencil.Source

/-! A window on a text: the part of it that is at hand, and a cursor that can be moved back within it.

Over a text that is all there the window is all of it. Over a source it is made of segments, each
one buffer of the pool: as long as no loop is open, a full segment makes room for the next; while
loops are open, segments accumulate, so that every loop can go back to its beginning; when the last
loop is closed, those behind the cursor are given back. -/
namespace Stencil

/-- A stretch of the text at hand. -/
structure Segment where
  /-- The offset of its first character. -/
  start : Nat
  /-- Its characters. -/
  text : List Char := []
  /-- The buffer that they are kept in. -/
  buffer : Buffer
  deriving DecidableEq, Repr

namespace Segment

/-- The offset behind its last character. -/
def stop (s : Segment) : Nat :=
  s.start + s.text.length

def isFull (s : Segment) : Bool :=
  s.text.length = s.buffer.size

/-- Whether a character at hand has that offset. -/
def holds (s : Segment) (offset : Nat) : Bool :=
  s.start ≤ offset && offset < s.stop

end Segment

/-- Where the text of a window comes from. -/
inductive Supply (σ : Type) where
  /-- All of it is there. -/
  | fixed
  /-- From a source, into buffers of a certain size, until the source has ended. -/
  | streaming (source : σ) (size : Nat) (ended : Bool)

structure Window (σ : Type) where
  /-- Where the text comes from. -/
  supply : Supply σ
  /-- The stretches at hand, in order. -/
  segments : List Segment := []
  /-- The offset of the next character. -/
  cursor : Nat := 0
  growth : Nat := 0

namespace Window
variable {σ : Type}

/-- A window on a text that is all there. -/
def fixed (text : List Char) : Window σ :=
  { supply := .fixed, segments := [{ start := 0, text, buffer := ⟨text.length⟩ }] }

/-- A window on the text of a source. -/
def streaming (source : σ) (size : Nat) : Window σ :=
  { supply := .streaming source (max size 1) false }

def isFixed (w : Window σ) : Bool :=
  match w.supply with
  | .fixed => true
  | .streaming .. => false

/-- The offset behind the last character at hand. -/
def residentStop (w : Window σ) : Nat :=
  match w.segments.getLast? with
  | some s => s.stop
  | none => w.cursor

/-- The offset of the first character at hand. -/
def residentStart (w : Window σ) : Nat :=
  match w.segments.head? with
  | some s => s.start
  | none => 0

/-- The characters from the cursor to the end of the segment that holds it. -/
def rest? (w : Window σ) : Option (List Char) :=
  (w.segments.reverse.find? (·.holds w.cursor)).map fun s => s.text.drop (w.cursor - s.start)

def advance (w : Window σ) (count : Nat) : Window σ :=
  { w with cursor := w.cursor + count }

/-- Move the cursor to an offset at hand. -/
def seek (w : Window σ) (offset : Nat) : Except RenderError (Window σ) :=
  if w.residentStart ≤ offset ∧ offset ≤ w.residentStop then .ok { w with cursor := offset }
  else .error (.position offset w.residentStart w.residentStop)

/-! ### Buffers and loops -/

/-- What an operation on a window yields, the window after it, and the pool after it. -/
abbrev Step (σ α : Type) := α × Window σ × Pool

/-- Give the buffers of some segments back, where they are from the pool. -/
def recycle (w : Window σ) (segments : List Segment) (pool : Pool) : Pool :=
  match w.supply with
  | .fixed => pool
  | .streaming .. => pool.giveBackAll (segments.map (·.buffer))

/-- What is left of some segments, but one at least, without those that end at or before an
offset. -/
def dropBehind (offset : Nat) : List Segment → List Segment
  | s :: t :: rest => if s.stop ≤ offset then dropBehind offset (t :: rest) else s :: t :: rest
  | segments => segments

/-- Give back the segments behind the cursor, unless a loop is open. -/
def trim (w : Window σ) (pool : Pool) : Window σ × Pool :=
  if w.growth = 0 then
    let kept := dropBehind w.cursor w.segments
    let dropped := w.segments.take (w.segments.length - kept.length)
    ({ w with segments := kept }, w.recycle dropped pool)
  else (w, pool)

def openLoop (w : Window σ) : Window σ :=
  { w with growth := w.growth + 1 }

def closeLoop (w : Window σ) (pool : Pool) : Window σ × Pool :=
  match w.growth with
  | 0 => (w, pool)
  | 1 => trim { w with growth := 0 } pool
  | growth + 1 => ({ w with growth }, pool)

/-- Give everything back. -/
def release (w : Window σ) (pool : Pool) : Window σ × Pool :=
  ({ w with segments := [] }, w.recycle w.segments pool)

/-! ### Reading on -/

/-- Segments whose last one has room for more characters. If the last one is full, an empty one is
begun at the cursor: in the buffer of the last one, which is then the only one left, or in a new one
while a loop is open. -/
def makeRoom (w : Window σ) (size : Nat) (pool : Pool) : List Segment × Segment × Pool :=
  match w.segments.getLast? with
  | none =>
    let (buffer, pool) := pool.checkOut size
    ([], { start := w.cursor, buffer }, pool)
  | some last =>
    if last.isFull then
      if w.growth = 0 then
        ([], { start := w.cursor, buffer := last.buffer },
          pool.giveBackAll (w.segments.dropLast.map (·.buffer)))
      else
        let (buffer, pool) := pool.checkOut size
        (w.segments, { start := w.cursor, buffer }, pool)
    else (w.segments.dropLast, last, pool)

/-- The window after its source was read into `last`. -/
def filled (w : Window σ) (before : List Segment) (last : Segment) (source : σ) (size : Nat)
    (ended : Bool) (cs : List Char) : Window σ :=
  { w with
    supply := .streaming source size ended
    segments := before ++ [{ last with text := last.text ++ cs }] }

/-- Read on from the source. False means that there is nothing more. -/
def fill [CharSource σ] (w : Window σ) (pool : Pool) : Step σ (Except RenderError Bool) :=
  match w.supply with
  | .fixed => (.ok false, w, pool)
  | .streaming source size ended =>
    if ended then (.ok false, w, pool)
    else
      let (before, last, pool) := w.makeRoom size pool
      match CharSource.read source (last.buffer.size - last.text.length) with
      | (.error message, source) =>
        (.error (.io message), w.filled before last source size false [], pool)
      | (.ok [], source) => (.ok false, w.filled before last source size true [], pool)
      | (.ok (c :: cs), source) =>
        (.ok true, w.filled before last source size false (c :: cs), pool)

/-- A bound on the number of characters that can still be read. -/
def supplyBound [CharSource σ] (w : Window σ) : Nat :=
  match w.supply with
  | .fixed => 0
  | .streaming source _ _ => CharSource.bound source

/-- Reading on takes characters off the bound. -/
theorem supplyBound_of_fill [CharSource σ] {w w' : Window σ} {pool pool' : Pool}
    (h : w.fill pool = (.ok true, w', pool')) : w'.supplyBound < w.supplyBound := by
  unfold fill at h
  split at h
  · simp at h
  · next source size ended hs =>
    split at h
    · simp at h
    · split at h
      split at h
      · simp at h
      · simp at h
      · next c cs source' hr =>
        have := CharSource.bound_of_ok hr
        simp only [Prod.mk.injEq] at h
        rw [← h.2.1]
        simp only [supplyBound, filled, hs, List.length_cons] at this ⊢
        omega

/-- The characters at hand from the cursor on, read if there are none; none at the end of the
text. -/
def span [CharSource σ] (w : Window σ) (pool : Pool) : Step σ (Except RenderError (List Char)) :=
  match w.rest? with
  | some cs => (.ok cs, w, pool)
  | none =>
    match _h : w.fill pool with
    | (.ok true, w', pool') => span w' pool'
    | (.ok false, w', pool') => (.ok [], w', pool')
    | (.error e, w', pool') => (.error e, w', pool')
termination_by w.supplyBound
decreasing_by exact supplyBound_of_fill ‹_›

/-! ### What lies ahead -/

/-- How many characters segments hold from an offset on. -/
def heldFrom (offset : Nat) : List Segment → Nat
  | [] => 0
  | s :: segments => (s.stop - offset) + heldFrom offset segments

theorem heldFrom_append (offset : Nat) (segments more : List Segment) :
    heldFrom offset (segments ++ more) = heldFrom offset segments + heldFrom offset more := by
  induction segments with
  | nil => simp [heldFrom]
  | cons s segments ih =>
    simp only [List.cons_append, heldFrom, ih]
    omega

/-- A bound on the number of characters from the cursor on, at hand or still to be read. -/
def ahead [CharSource σ] (w : Window σ) : Nat :=
  heldFrom w.cursor w.segments + w.supplyBound

/-- Making room only drops segments. -/
theorem heldFrom_makeRoom (w : Window σ) (size : Nat) (pool : Pool) :
    heldFrom w.cursor (w.makeRoom size pool).1 + ((w.makeRoom size pool).2.1.stop - w.cursor)
      ≤ heldFrom w.cursor w.segments := by
  unfold makeRoom
  split
  · simp [heldFrom, Segment.stop]
  · next last h =>
    obtain ⟨before, hs⟩ := List.getLast?_eq_some_iff.1 h
    split
    · split <;> simp [heldFrom, Segment.stop]
    · simp [hs, heldFrom_append, heldFrom]

/-- What is read is taken off what can still be read. -/
theorem ahead_filled [CharSource σ] {w : Window σ} {pool : Pool} {source source' : σ}
    {size : Nat} {ended ended' : Bool} {cs : List Char}
    (hs : w.supply = .streaming source size ended)
    (hb : cs.length + CharSource.bound source' ≤ CharSource.bound source) :
    (w.filled (w.makeRoom size pool).1 (w.makeRoom size pool).2.1 source' size ended' cs).ahead
      ≤ w.ahead := by
  have := heldFrom_makeRoom w size pool
  simp only [ahead, supplyBound, filled, hs, heldFrom_append, heldFrom, Segment.stop,
    List.length_append] at this ⊢
  omega

/-- Reading on brings nothing that was not there to be read. -/
theorem ahead_fill_le [CharSource σ] (w : Window σ) (pool : Pool) :
    (w.fill pool).2.1.ahead ≤ w.ahead := by
  unfold fill
  split
  · exact Nat.le_refl _
  · next source size ended hs =>
    split
    · exact Nat.le_refl _
    · split
      next before last pool' hm =>
      have hb : before = (w.makeRoom size pool).1 := by rw [hm]
      have hl : last = (w.makeRoom size pool).2.1 := by rw [hm]
      subst hb hl
      split
      · next hr => exact ahead_filled hs (by simpa using CharSource.bound_of_error hr)
      · next hr => exact ahead_filled hs (CharSource.bound_of_ok hr)
      · next hr => exact ahead_filled hs (CharSource.bound_of_ok hr)

/-- Neither does asking for characters. -/
theorem ahead_span_le [CharSource σ] (w : Window σ) (pool : Pool) :
    (w.span pool).2.1.ahead ≤ w.ahead := by
  fun_induction span w pool with
  | case1 => exact Nat.le_refl _
  | case2 w pool _ w' pool' h ih =>
    have := ahead_fill_le w pool
    rw [h] at this
    exact Nat.le_trans ih this
  | case3 w pool _ w' pool' h =>
    have := ahead_fill_le w pool
    rwa [h] at this
  | case4 w pool _ e w' pool' h =>
    have := ahead_fill_le w pool
    rwa [h] at this

/-- If there are characters, they are at hand. -/
theorem exists_holds_of_span [CharSource σ] (w : Window σ) (pool : Pool) {c : Char}
    {cs : List Char} (h : (w.span pool).1 = .ok (c :: cs)) :
    ∃ s ∈ (w.span pool).2.1.segments, s.holds (w.span pool).2.1.cursor = true := by
  fun_induction span w pool with
  | case1 w pool cs' hw =>
    obtain ⟨s, hf, -⟩ := Option.map_eq_some_iff.1 hw
    have hs := List.find?_some hf
    exact ⟨s, by simpa using List.mem_of_find?_eq_some hf, hs⟩
  | case2 w pool _ w' pool' hf ih => exact ih h
  | case3 => simp at h
  | case4 => simp at h

/-- From a later offset on there is no more. -/
theorem heldFrom_le (offset count : Nat) (segments : List Segment) :
    heldFrom (offset + count) segments ≤ heldFrom offset segments := by
  induction segments with
  | nil => exact Nat.le_refl _
  | cons s segments ih =>
    simp only [heldFrom]
    omega

/-- From behind a character at hand on there is less. -/
theorem heldFrom_lt {offset count : Nat} {segments : List Segment} (hc : 0 < count)
    (h : ∃ s ∈ segments, s.holds offset = true) :
    heldFrom (offset + count) segments < heldFrom offset segments := by
  induction segments with
  | nil => simp at h
  | cons s segments ih =>
    have hle := heldFrom_le offset count segments
    simp only [List.mem_cons, exists_eq_or_imp] at h
    simp only [heldFrom]
    rcases h with h | h
    · simp only [Segment.holds, Bool.and_eq_true, decide_eq_true_eq] at h
      omega
    · have := ih h
      omega

/-- Passing over characters at hand leaves fewer. -/
theorem ahead_advance_lt [CharSource σ] {w : Window σ} {count : Nat} (hc : 0 < count)
    (h : ∃ s ∈ w.segments, s.holds w.cursor = true) : (w.advance count).ahead < w.ahead := by
  have := heldFrom_lt hc h
  simp only [ahead, advance, supplyBound] at this ⊢
  omega

end Window

end Stencil
