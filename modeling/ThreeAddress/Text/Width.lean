import ThreeAddress.Text.Ligature

/-!
# Widths on a grid of cells

How many cells a text takes on a terminal. By itself a character takes one cell; combining marks and
characters that are not displayed take none, East Asian wide characters and emoji take two. Side by
side some take less: the parts of an emoji sequence share two cells, and the letters of a ligature
share those of one letter.

The text is read from its end. `Tail` says what the part that has been read begins with, so far as
the width of the character before it depends on that; `Reading.before` reads one character more.
-/

namespace ThreeAddress.Text

/-- Characters whose property `East_Asian_Width` is wide or full-width, less marks and emoji. -/
def wideRanges : List (Nat × Nat) :=
  [(0x1100, 0x115F), (0x2329, 0x232A), (0x2E80, 0x2E99), (0x2E9B, 0x2EF3), (0x2F00, 0x2FD5),
    (0x2FF0, 0x3029), (0x3030, 0x303E), (0x3041, 0x3096), (0x309B, 0x30FF), (0x3105, 0x312F),
    (0x3131, 0x3163), (0x3165, 0x318E), (0x3190, 0x31E3), (0x31EF, 0x321E), (0x3220, 0x3247),
    (0x3250, 0x4DBF), (0x4E00, 0xA48C), (0xA490, 0xA4C6), (0xA960, 0xA97C), (0xAC00, 0xD7A3),
    (0xF900, 0xFAFF), (0xFE10, 0xFE19), (0xFE30, 0xFE52), (0xFE54, 0xFE66), (0xFE68, 0xFE6B),
    (0xFF01, 0xFF60), (0xFFE0, 0xFFE6), (0x16FE0, 0x16FE3), (0x16FF0, 0x16FF1), (0x17000, 0x187F7),
    (0x18800, 0x18CD5), (0x18D00, 0x18D08), (0x1AFF0, 0x1AFF3), (0x1AFF5, 0x1AFFB),
    (0x1AFFD, 0x1AFFE), (0x1B000, 0x1B122), (0x1B132, 0x1B132), (0x1B150, 0x1B152),
    (0x1B155, 0x1B155), (0x1B164, 0x1B167), (0x1B170, 0x1B2FB), (0x1F200, 0x1F200),
    (0x1F202, 0x1F202), (0x1F210, 0x1F219), (0x1F21B, 0x1F22E), (0x1F230, 0x1F231),
    (0x1F237, 0x1F237), (0x1F23B, 0x1F23B), (0x1F240, 0x1F248), (0x1F260, 0x1F265),
    (0x20000, 0x2FFFD), (0x30000, 0x3FFFD)]

/-! ## Tails -/

/-- What a text begins with. -/
inductive Tail where
  | plain
  | lineFeed
  /-- A letter that may end a ligature, perhaps with a joiner before it. -/
  | letter (l : Letter) (isJoined : Bool)
  /-- An emoji. -/
  | pictograph
  | skinTone
  /-- One regional indicator. -/
  | indicator
  /-- Two or more regional indicators. -/
  | indicators
  /-- A joiner and an emoji. -/
  | joined
  /-- A keycap before a joined emoji. -/
  | joinedKeycap
  /-- One regional indicator before a joined emoji. -/
  | joinedIndicator
  /-- Pairs of regional indicators before a joined emoji. -/
  | joinedPairs
  /-- Pairs of regional indicators and one more before a joined emoji. -/
  | joinedUnpaired
  /-- The last tags of a sequence before a joined emoji, `n` of them letters. -/
  | tags (n : Nat)
  /-- The last tags of a sequence before a joined emoji, beginning with `n` digits. -/
  | digitTags (n : Nat)
  deriving DecidableEq, Repr

namespace Tail

/-- The width of a character by itself, and the tail that it makes. The Khmer sign beyyal takes
three cells, and the Khmer vowel qaa takes two. -/
def alone (c : Char) : Nat × Tail :=
  match Letter.ofChar? c with
  | some l => (1, letter l false)
  | none =>
    if isIndicator c then (1, indicator)
    else if isSkinTone c then (2, skinTone)
    else if isEmoji c then (2, pictograph)
    else if isWeightless c then (0, plain)
    else if c.toNat = 0x17D8 then (3, plain)
    else if c.toNat = 0x17A4 || inRanges wideRanges c then (2, plain)
    else (1, plain)

/-- May a joiner before this tail connect it with an emoji? -/
def isJoinable : Tail → Bool
  | pictograph | skinTone | indicators | joinedPairs | joinedUnpaired => true
  | _ => false

/-- A tail before which an emoji needs no room of its own, provided it has its selector. -/
def absorbsSelected : Tail → Bool
  | joined | joinedKeycap => true
  | _ => false

/-- What a selector leaves of the tail behind it. A ligature may go on before the selector. -/
def behindSelector : Tail → Tail
  | letter l isJoined => letter l isJoined
  | _ => plain

/-- What a character adds to the width of a sequence or a ligature after it, and the tail that it
makes; no answer if it does not belong to one. -/
def extend? (t : Tail) (c : Char) : Option (Int × Tail) :=
  let n := c.toNat
  if c = joiner && t.isJoinable then some (0, joined)
  else match t with
    | plain | lineFeed | pictograph => none
    | letter .alef _ =>
      if Letter.passes .alef c then some (0, t)
      else (Letter.ligate .alef false c).map fun r => (r.1, plain)
    | letter l isJoined =>
      if c = joiner then some (0, letter l true)
      else if l.passes c then some (0, t)
      else (l.ligate isJoined c).map fun r =>
        (r.1, match r.2 with
          | some l' => letter l' false
          | none => plain)
    | skinTone => if isToneBase c then some (0, pictograph) else none
    | indicator | indicators => if isIndicator c then some (1, indicators) else none
    | joined =>
      if n = 0x20E3 then some (0, joinedKeycap)
      else if isIndicator c then some (1, joinedIndicator)
      else if isSkinTone c then some (0, skinTone)
      else if n = 0xE007F then some (0, tags 0)
      else if isEmoji c then some (0, pictograph)
      else none
    | joinedKeycap => none
    | joinedIndicator | joinedUnpaired => if isIndicator c then some (-1, joinedPairs) else none
    | joinedPairs => if isIndicator c then some (3, joinedUnpaired) else none
    | tags k =>
      if 0xE0061 ≤ n && n ≤ 0xE007A && k < 6 then some (0, tags (k + 1))
      else if 0xE0030 ≤ n && n ≤ 0xE0039 && k < 5 then some (0, digitTags 1)
      else if n = 0x1F3F4 && 3 ≤ k then some (0, pictograph)
      else none
    | digitTags k =>
      if 0xE0030 ≤ n && n ≤ 0xE0039 && k < 3 then some (0, digitTags (k + 1))
      else if n = 0x1F3F4 && k = 3 then some (0, pictograph)
      else none

end Tail

/-! ## Reading a text from its end -/

inductive Selector where
  | text
  | emoji
  deriving DecidableEq, Repr

/-- What has been read of a text: its width, its tail, and the selector in front of that. -/
structure Reading where
  width : Int := 0
  tail : Tail := .plain
  selector : Option Selector := none
  deriving DecidableEq, Repr

namespace Reading

/-- One character more that takes `n` cells and makes a tail. -/
def add (r : Reading) (n : Int) (tail : Tail) : Reading :=
  { width := r.width + n, tail }

/-- Passes over a selector that does not apply to the character before it. -/
def dropSelector (r : Reading) : Reading :=
  { width := r.width, tail := r.tail.behindSelector }

/-- A selector in front. -/
def select (r : Reading) (s : Selector) : Reading :=
  { r with
    tail := if s = .emoji && r.tail.absorbsSelected then r.tail else r.tail.behindSelector
    selector := some s }

/-- A character up to the no-break space. A carriage return before a line feed takes no cell, nor
does the line feed; other controls take one. -/
def beforeAscii (r : Reading) (c : Char) : Reading :=
  if c = '\n' then r.add 0 .lineFeed
  else if c = '\r' && r.tail = .lineFeed then r.add 0 .plain
  else r.add 1 .plain

/-- A character that no selector applies to. -/
def beforeChar (r : Reading) (c : Char) : Reading :=
  match r.tail.extend? c with
  | some (n, tail) => r.add n tail
  | none => r.add (Tail.alone c).1 (Tail.alone c).2

/-- Any character but those of an emoji that the emoji selector makes. -/
def beforeOther (r : Reading) (c : Char) : Reading :=
  if c.toNat ≤ 0xA0 then r.beforeAscii c
  else if c = emojiSelector then r.select .emoji
  else if c = textSelector then r.select .text
  else if r.selector = some .text then
    if startsTextSequence c then r.add 1 .plain else r.dropSelector.beforeChar c
  else r.beforeChar c

/-- Reads the character before. -/
def before (r : Reading) (c : Char) : Reading :=
  if r.selector = some .emoji then
    if startsEmojiSequence c then r.add (if r.tail.absorbsSelected then 0 else 2) .pictograph
    else r.dropSelector.beforeOther c
  else r.beforeOther c

end Reading

/-- A text, read from its end. -/
def reading (text : List Char) : Reading :=
  text.foldr (fun c r => r.before c) {}

/-- The cells that a text takes. -/
def width (text : List Char) : Nat :=
  (reading text).width.toNat

end ThreeAddress.Text
