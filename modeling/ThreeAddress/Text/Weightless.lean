import ThreeAddress.Text.Mark

/-!
# Characters without a cell

Combining marks and characters that are not displayed take no room of their own.
-/

namespace ThreeAddress.Text

/-- Characters other than combining marks that take no cell: those with the property
`Default_Ignorable_Code_Point`, the later letters of a Hangul syllable, signs that enclose the
letters after them or are drawn on the next one, and vowel signs that consist of marks. -/
def weightlessRanges : List (Nat × Nat) :=
  [(0xAD, 0xAD), (0x605, 0x605), (0x61C, 0x61C), (0x70F, 0x70F), (0x890, 0x891), (0x8E2, 0x8E2),
    (0xCC0, 0xCC0), (0xCC7, 0xCC8), (0xCCA, 0xCCB), (0xD4E, 0xD4E), (0x1160, 0x11FF),
    (0x180E, 0x180E), (0x1B3B, 0x1B3B), (0x1B3D, 0x1B3D), (0x1B43, 0x1B43), (0x200B, 0x200B),
    (0x200D, 0x200F), (0x202A, 0x202E), (0x2060, 0x206F), (0x3164, 0x3164), (0xA8FA, 0xA8FA),
    (0xD7B0, 0xD7C6), (0xD7CB, 0xD7FB), (0xFEFF, 0xFEFF), (0xFFA0, 0xFFA0), (0xFFF0, 0xFFF8),
    (0x111C2, 0x111C3), (0x1193F, 0x1193F), (0x11941, 0x11941), (0x11A3A, 0x11A3A),
    (0x11A84, 0x11A89), (0x11D46, 0x11D46), (0x11F02, 0x11F02), (0x1BCA0, 0x1BCA3),
    (0x1D173, 0x1D17A), (0xE0000, 0xE001F), (0xE0080, 0xE00FF), (0xE01F0, 0xE0FFF)]

/-- Does a character take no cell? The joining mark of the Tifinagh script is the one mark that is
seen on its own. -/
def isWeightless (c : Char) : Bool :=
  c.toNat ≠ 0x2D7F && (isMark c || inRanges weightlessRanges c)

end ThreeAddress.Text
