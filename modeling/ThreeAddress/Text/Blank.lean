/-!
# Blank characters

The characters that separate words: those with the Unicode property `White_Space`. There are 25 of
them, in ten ranges.
-/

namespace ThreeAddress.Text

/-- The code points with the property `White_Space`, as closed ranges in ascending order. -/
def blankRanges : List (Nat × Nat) :=
  [(0x09, 0x0D), (0x20, 0x20), (0x85, 0x85), (0xA0, 0xA0), (0x1680, 0x1680), (0x2000, 0x200A),
    (0x2028, 0x2029), (0x202F, 0x202F), (0x205F, 0x205F), (0x3000, 0x3000)]

/-- Blank characters separate words and belong to none. -/
def isBlank (c : Char) : Bool :=
  blankRanges.any fun r => r.1 ≤ c.toNat && c.toNat ≤ r.2

theorem isBlank_space : isBlank ' ' = true := by decide
theorem isBlank_lineFeed : isBlank '\n' = true := by decide
theorem isBlank_return : isBlank '\r' = true := by decide

end ThreeAddress.Text
