/-! White space.
`isBlank` is the Unicode property White_Space; `isSpaceOrTab` is the narrower class that separates
the parts of a trigger.
-/

namespace DueTasks.Text

/-- The ranges of the Unicode property White_Space. -/
def blankRanges : List (Nat × Nat) :=
  [(0x09, 0x0D), (0x20, 0x20), (0x85, 0x85), (0xA0, 0xA0), (0x1680, 0x1680),
    (0x2000, 0x200A), (0x2028, 0x2029), (0x202F, 0x202F), (0x205F, 0x205F),
    (0x3000, 0x3000)]

/-- Whether a character has the Unicode property White_Space. -/
def isBlank (c : Char) : Bool :=
  blankRanges.any fun range => range.1 ≤ c.toNat && c.toNat ≤ range.2

def isSpaceOrTab (c : Char) : Bool :=
  c == ' ' || c == '\t'

/-- The text without white space at its end. -/
def trimRight (chars : List Char) : List Char :=
  (chars.reverse.dropWhile isBlank).reverse

/-- The text without white space at either end. -/
def trim (chars : List Char) : List Char :=
  trimRight (chars.dropWhile isBlank)

/-- Whether a text holds nothing but white space. -/
def allBlank (chars : List Char) : Bool :=
  chars.all isBlank

/-- Spaces and tabs are white space. -/
theorem isBlank_of_isSpaceOrTab {c : Char} (h : isSpaceOrTab c = true) : isBlank c = true := by
  simp only [isSpaceOrTab, Bool.or_eq_true, beq_iff_eq] at h
  rcases h with rfl | rfl <;> rfl

end DueTasks.Text
