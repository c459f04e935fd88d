/-!
# Text

Text is a list of code points.  Characters never combine and are never
normalised, so the equality of two texts is the equality of the two lists, and
their order is the order of the first code points in which they differ.

A class of characters is given as a table of code point ranges.  The blank
characters are the twenty-nine code points that separate tokens: the ASCII layout
controls, the four information separators, the space, NEXT LINE, and the space,
line and paragraph separators of Unicode.  The zero-width characters are not
among them.
-/

namespace Sexp

/-- A sequence of Unicode code points. -/
abbrev Text := List Char

/-- The code points from `first` to `last`, both included. -/
structure CodeRange where
  first : Nat
  last : Nat

namespace CodeRange

def contains (range : CodeRange) (c : Char) : Bool :=
  range.first ≤ c.toNat && c.toNat ≤ range.last

@[simp] theorem contains_iff (range : CodeRange) (c : Char) :
    range.contains c = true ↔ range.first ≤ c.toNat ∧ c.toNat ≤ range.last := by
  simp [contains]

end CodeRange

/-- Whether a character lies in one of the ranges of a table. -/
def inRanges (table : List CodeRange) (c : Char) : Bool :=
  table.any (·.contains c)

theorem inRanges_iff (table : List CodeRange) (c : Char) :
    inRanges table c = true ↔
      ∃ range ∈ table, range.first ≤ c.toNat ∧ c.toNat ≤ range.last := by
  simp [inRanges]

/-! ## Blank characters -/

/-- The ranges of the blank code points, in ascending order. -/
def blankRanges : List CodeRange :=
  [⟨0x09, 0x0D⟩, ⟨0x1C, 0x20⟩, ⟨0x85, 0x85⟩, ⟨0xA0, 0xA0⟩, ⟨0x1680, 0x1680⟩,
   ⟨0x2000, 0x200A⟩, ⟨0x2028, 0x2029⟩, ⟨0x202F, 0x202F⟩, ⟨0x205F, 0x205F⟩,
   ⟨0x3000, 0x3000⟩]

/-- Whether a character separates tokens. -/
def isBlank (c : Char) : Bool := inRanges blankRanges c

example :
    blankRanges.foldl (fun count range => count + (range.last + 1 - range.first)) 0 = 29 := by
  decide

theorem isBlank_space : isBlank ' ' = true := by decide

end Sexp
