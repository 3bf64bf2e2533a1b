/-! Sets of code points, written as inclusive ranges. The character classes of the Unicode
standard are data; this is the shape their tables take. -/
namespace Stencil.Text

/-- A set of code points: inclusive ranges in ascending order. -/
abbrev CodeRanges := List (Nat × Nat)

def CodeRanges.contains (ranges : CodeRanges) (code : Nat) : Bool :=
  ranges.any fun range => range.1 ≤ code && code ≤ range.2

end Stencil.Text
