import Stencil.Delimiter.Matcher
import Stencil.Delimiter.Quoting

/-! Scanning for delimiters, one stretch of text after another.

A `TextScan` looks for the next left delimiter in literal text, a `CloseScan` for the right delimiter
that closes a token. Both keep their state between stretches, so a delimiter is found wherever the
text is cut. Texts that are being collected are kept last character first. -/
namespace Stencil

/-- What became of a stretch of text. -/
structure Scanned (σ : Type) where
  /-- How many of its characters were used. -/
  consumed : Nat
  /-- Whether the delimiter ends there. -/
  found : Bool
  scan : σ

/-- Feed the characters of a stretch until one completes what is looked for. -/
def scanWith {σ : Type} (feed : σ → Char → Bool × σ) (consumed : Nat) (s : σ) :
    List Char → Scanned σ
  | [] => ⟨consumed, false, s⟩
  | c :: rest =>
    match feed s c with
    | (true, s) => ⟨consumed + 1, true, s⟩
    | (false, s) => scanWith feed (consumed + 1) s rest

theorem le_consumed_scanWith {σ : Type} (feed : σ → Char → Bool × σ) (consumed : Nat) (s : σ)
    (stretch : List Char) : consumed ≤ (scanWith feed consumed s stretch).consumed := by
  induction stretch generalizing consumed s with
  | nil => exact Nat.le_refl _
  | cons c rest ih =>
    unfold scanWith
    split
    · exact Nat.le_succ _
    · exact Nat.le_trans (Nat.le_succ _) (ih _ _)

/-- Of a stretch that is not empty, some characters are used. -/
theorem consumed_scanWith_pos {σ : Type} (feed : σ → Char → Bool × σ) (s : σ) (c : Char)
    (rest : List Char) : 0 < (scanWith feed 0 s (c :: rest)).consumed := by
  unfold scanWith
  split
  · exact Nat.one_pos
  · exact le_consumed_scanWith feed 1 _ rest

/-- The search for a left delimiter in literal text. -/
structure TextScan where
  /-- The delimiter and how much of it is matched. -/
  left : Matcher
  /-- Whether a backslash in front of the delimiter makes it literal. -/
  escapes : Bool := false
  /-- The literal text that was met and not taken yet, last character first. -/
  held : List Char := []

namespace TextScan

/-- Look for `left` in a template. -/
def plain (left : List Char) : TextScan :=
  { left := .ofPattern left }

/-- Look for `left` where a backslash makes it literal. -/
def escaping (left : List Char) : TextScan :=
  { left := .ofPattern left, escapes := true }

/-- Feed one character. A delimiter that is found is not part of the literal text; one that is made
literal is, without its backslash. -/
def feed (s : TextScan) (c : Char) : Bool × TextScan :=
  match s.left.feed c with
  | (false, left) => (false, { s with left, held := c :: s.held })
  | (true, left) =>
    let size := left.pattern.length
    let delimiter := (c :: s.held).take size
    match (c :: s.held).drop size with
    | [] => (true, { s with left, held := [] })
    | last :: before =>
      if s.escapes && last = Quoting.escape then
        (false, { s with left, held := delimiter ++ before })
      else (true, { s with left, held := last :: before })

def scan (s : TextScan) (stretch : List Char) : Scanned TextScan :=
  scanWith feed 0 s stretch

/-- Take the literal text, but for the last `keep` characters. -/
def take (s : TextScan) (keep : Nat) : List Char × TextScan :=
  ((s.held.drop keep).reverse, { s with held := s.held.take keep })

def reset (s : TextScan) : TextScan :=
  { s with left := s.left.reset }

end TextScan

/-- The search for the right delimiter that closes a token. Quoted stretches count for nothing, and a
nested pair of delimiters belongs to the token. -/
structure CloseScan where
  /-- The left delimiter and how much of it is matched. -/
  left : Matcher
  /-- The right delimiter and how much of it is matched. -/
  right : Matcher
  /-- Whether the delimiters differ, so that pairs can nest. -/
  nests : Bool
  /-- Where the scan stands with quotes. -/
  quoting : Quoting := .outside
  /-- How many nested pairs are open. -/
  depth : Nat := 0
  /-- The token so far, last character first. -/
  body : List Char := []

namespace CloseScan

/-- Look for the end of a token right behind its left delimiter. -/
def start (left right : List Char) : CloseScan :=
  { left := .ofPattern left, right := .ofPattern right, nests := left != right }

/-- Feed one character that stands outside quotes and is no quote. -/
def feedOpen (s : CloseScan) (c : Char) : Bool × CloseScan :=
  let (closes, right) := s.right.feed c
  let (opens, left) := if s.nests then s.left.feed c else (false, s.left)
  let body := c :: s.body
  if closes then
    if s.depth = 0 then
      (true, { s with left, right, body := body.drop right.pattern.length })
    else
      (false, { s with left := left.reset, right, body, depth := s.depth - 1 })
  else if opens then
    (false, { s with left, right := right.reset, body, depth := s.depth + 1 })
  else
    (false, { s with left, right, body })

/-- Feed one character. The body does not include the delimiter that closes it. -/
def feed (s : CloseScan) (c : Char) : Bool × CloseScan :=
  if s.quoting = .outside then
    if c = Quoting.mark then
      (false, { s with
        left := s.left.reset, right := s.right.reset, body := c :: s.body, quoting := .inside })
    else s.feedOpen c
  else
    (false, { s with body := c :: s.body, quoting := s.quoting.next c })

def scan (s : CloseScan) (stretch : List Char) : Scanned CloseScan :=
  scanWith feed 0 s stretch

/-- The token so far. -/
def text (s : CloseScan) : List Char :=
  s.body.reverse

/-- What one pair of delimiters wraps, if the text is exactly one pair. -/
def unwrap? (left right text : List Char) : Option (List Char) :=
  if left.isPrefixOf text then
    let rest := text.drop left.length
    let scanned := (start left right).scan rest
    if scanned.found && scanned.consumed = rest.length then
      some (rest.take (rest.length - right.length))
    else none
  else none

end CloseScan

end Stencil
