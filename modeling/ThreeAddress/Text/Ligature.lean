import ThreeAddress.Text.Emoji
import ThreeAddress.Text.Weightless

/-!
# Ligatures of letters

Some letters are drawn in less room when they stand side by side. A text is read from its end, so a
ligature is known by its last letter, and each letter found before it changes the room that is
taken. In some scripts a joiner before the last letter asks for the ligature.
-/

namespace ThreeAddress.Text

/-- Letters of the joining group Alef. -/
def alefRanges : List (Nat × Nat) :=
  [(0x622, 0x623), (0x625, 0x625), (0x627, 0x627), (0x671, 0x673), (0x675, 0x675), (0x773, 0x774),
    (0x870, 0x882)]

/-- Letters of the joining group Lam that join with an alef. -/
def lamRanges : List (Nat × Nat) :=
  [(0x644, 0x644), (0x6B5, 0x6B8), (0x76A, 0x76A), (0x8A6, 0x8A6), (0x8C7, 0x8C7)]

/-- Khmer letters that can stand below another letter. -/
def khmerRanges : List (Nat × Nat) :=
  [(0x1780, 0x1782), (0x1784, 0x1787), (0x1789, 0x178C), (0x178E, 0x1793), (0x1795, 0x1798),
    (0x179B, 0x179D), (0x17A0, 0x17A0), (0x17A2, 0x17A2), (0x17A7, 0x17A7), (0x17AB, 0x17AC),
    (0x17AF, 0x17AF)]

/-- Tifinagh letters. -/
def tifinaghRanges : List (Nat × Nat) :=
  [(0x2D31, 0x2D65), (0x2D6F, 0x2D6F)]

/-- Characters without a cell that end an Arabic ligature: those whose property `Joining_Type` is
not transparent. -/
def nontransparentRanges : List (Nat × Nat) :=
  [(0x605, 0x605), (0x890, 0x891), (0x8E2, 0x8E2), (0x9BE, 0x9BE), (0x9D7, 0x9D7), (0xB3E, 0xB3E),
    (0xB57, 0xB57), (0xBBE, 0xBBE), (0xBD7, 0xBD7), (0xCC0, 0xCC0), (0xCC2, 0xCC2), (0xCC7, 0xCC8),
    (0xCCA, 0xCCB), (0xCD5, 0xCD6), (0xD3E, 0xD3E), (0xD4E, 0xD4E), (0xD57, 0xD57), (0xDCF, 0xDCF),
    (0xDDF, 0xDDF), (0x1160, 0x11FF), (0x180E, 0x180E), (0x1B35, 0x1B35), (0x1B3B, 0x1B3B),
    (0x1B3D, 0x1B3D), (0x1B43, 0x1B43), (0x200C, 0x200D), (0x2065, 0x2069), (0x302E, 0x302F),
    (0x3164, 0x3164), (0xA8FA, 0xA8FA), (0xD7B0, 0xD7C6), (0xD7CB, 0xD7FB), (0xFF9E, 0xFFA0),
    (0xFFF0, 0xFFF8), (0x111C2, 0x111C3), (0x1133E, 0x1133E), (0x11357, 0x11357),
    (0x114B0, 0x114B0), (0x114BD, 0x114BD), (0x115AF, 0x115AF), (0x11930, 0x11930),
    (0x1193F, 0x1193F), (0x11941, 0x11941), (0x11A3A, 0x11A3A), (0x11A84, 0x11A89),
    (0x11D46, 0x11D46), (0x11F02, 0x11F02), (0x1D165, 0x1D165), (0x1D16E, 0x1D172),
    (0xE0000, 0xE0000), (0xE0002, 0xE001F), (0xE0080, 0xE00FF), (0xE01F0, 0xE0FFF)]

/-- Joiners and selectors, which do not end the other ligatures. -/
def ligatureControlRanges : List (Nat × Nat) :=
  [(0x34F, 0x34F), (0x17B4, 0x17B5), (0x180B, 0x180D), (0x180F, 0x180F), (0x200D, 0x200D),
    (0xFE00, 0xFE0F), (0xE0100, 0xE01EF)]

/-- What a ligature ends with. -/
inductive Letter where
  | alef
  | lamed
  /-- The Buginese letter ya. -/
  | ya
  /-- The Buginese vowel sign i, joined with the letter ya. -/
  | joinedYa
  | tifinagh
  /-- The joining mark between Tifinagh letters. -/
  | tifinaghJoiner
  /-- The second of two Lisu tone letters. -/
  | lisuTone
  | orkhonI
  | khmer
  deriving DecidableEq, Repr

namespace Letter

/-- The letter that a character may end a ligature as. -/
def ofChar? (c : Char) : Option Letter :=
  let n := c.toNat
  if n = 0x5DC then some lamed
  else if n = 0x1A10 then some ya
  else if n = 0x10C03 then some orkhonI
  else if 0xA4FC ≤ n && n ≤ 0xA4FD then some lisuTone
  else if inRanges alefRanges c then some alef
  else if inRanges khmerRanges c then some khmer
  else if inRanges tifinaghRanges c then some tifinagh
  else none

/-- Is a character passed over between the letters of a ligature? -/
def passes (l : Letter) (c : Char) : Bool :=
  match l with
  | alef => isWeightless c && !inRanges nontransparentRanges c
  | _ => inRanges ligatureControlRanges c

/-- What a character adds to the room of the ligature after it, and the letter that the ligature now
begins with, if it may go on; `joined` says whether a joiner stands between. No answer if the
character does not belong to the ligature. -/
def ligate (l : Letter) (joined : Bool) (c : Char) : Option (Int × Option Letter) :=
  let n := c.toNat
  match l with
  | alef => if inRanges lamRanges c then some (0, none) else none
  | lamed => if joined && n = 0x5D0 then some (0, none) else none
  | ya => if joined && n = 0x1A17 then some (0, some joinedYa) else none
  | joinedYa => if n = 0x1A15 then some (0, none) else none
  | tifinagh =>
    if n = 0x2D7F then some (1, some tifinaghJoiner)
    else if joined && inRanges tifinaghRanges c then some (0, none)
    else none
  | tifinaghJoiner => if inRanges tifinaghRanges c then some (-1, none) else none
  | lisuTone => if 0xA4F8 ≤ n && n ≤ 0xA4FB then some (0, none) else none
  | orkhonI => if joined && n = 0x10C32 then some (0, none) else none
  | khmer => if n = 0x17D2 then some (-1, none) else none

end Letter

end ThreeAddress.Text
